import ClusterYourCodex.Spec.Routes
import ClusterYourCodex.Fleet.Nodes
import ClusterYourCodex.Fleet.Pairings
import ClusterYourCodex.Proofs.Devices
import ClusterYourCodex.Proofs.Enrollment
import ClusterYourCodex.Proofs.Policies

/-! The gates of enrollment. What the controller checks of the head of a request is compared with the operation that the
body is for: the code of a pairing opens the gate exactly when some worker can consume the pairing, unless the counter of
fleet revisions is spent, and a credential opens it exactly when it can acknowledge. -/

namespace CYC

open Checked Relational

variable {env : Env} {db db' : Db} {R : Enrollments} {p : PairingRow} {c : WorkerCredentialRow} {code : String}

/-! ### A digest that no credential has -/

theorem Uuid.hexDigit_inj : ∀ a < 16, ∀ b < 16, Sha256.hexDigit a = Sha256.hexDigit b → a = b := by
  decide

theorem Uuid.mod_of_hexDigits {n x y : Nat} (h : hexDigits n x = hexDigits n y) : x % 16 ^ n = y % 16 ^ n := by
  induction n with
  | zero => simp [Nat.mod_one]
  | succ n ih =>
    obtain ⟨hfirst, hrest⟩ := List.cons.inj h
    have hdigit := hexDigit_inj _ (Nat.mod_lt _ (by decide)) _ (Nat.mod_lt _ (by decide)) hfirst
    rw [Nat.mod_pow_succ, Nat.mod_pow_succ, ih hrest, hdigit]

theorem Uuid.simple_injective : Function.Injective Uuid.simple := by
  intro u v h
  have hdigits := mod_of_hexDigits (String.ofList_injective h)
  have hpow : (16 : Nat) ^ 32 = 2 ^ 128 := by decide
  rw [hpow, Nat.mod_eq_of_lt u.value.isLt, Nat.mod_eq_of_lt v.value.isLt] at hdigits
  have hvalue : u.value = v.value := BitVec.eq_of_toNat_eq hdigits
  cases u
  cases v
  cases hvalue
  rfl

instance : Finite Uuid :=
  Finite.of_injective (fun u => u.value.toFin) fun u v h => by
    cases u
    cases v
    exact congrArg Uuid.mk (BitVec.toFin_inj.1 h)

/-- A digest for each identifier. -/
def digestOf (u : Uuid) : String := String.ofList (Uuid.hexDigits 32 u.value.toNat ++ Uuid.hexDigits 32 0)

theorem digestOf_injective : Function.Injective digestOf := by
  intro u v h
  refine Uuid.simple_injective (congrArg String.ofList ?_)
  exact (List.append_inj (String.ofList_injective h) (by rw [Uuid.length_hexDigits, Uuid.length_hexDigits])).1

theorem isLowerHexDigit_hexDigits (n x : Nat) : (Uuid.hexDigits n x).all Text.isLowerHexDigit = true := by
  have hdigit : ∀ d < 16, Text.isLowerHexDigit (Sha256.hexDigit d) = true := by decide
  induction n with
  | zero => rfl
  | succ n ih =>
    rw [Uuid.hexDigits, List.all_cons, ih, hdigit _ (Nat.mod_lt _ (by decide))]
    rfl

theorem validSha256_digestOf (u : Uuid) : validSha256 (digestOf u) = true := by
  unfold validSha256 digestOf isLowerHex
  rw [String.toList_ofList, List.all_append, isLowerHexDigit_hexDigits, isLowerHexDigit_hexDigits, List.length_append,
    Uuid.length_hexDigits, Uuid.length_hexDigits]
  rfl

/-- A pairing has one credential at most, so while one of them has none there are fewer credentials than identifiers. -/
theorem exists_digest (h : Records db R) (hnone : db.credentialsOf p.id = []) :
    ∃ u, ∀ c ∈ db.workerCredentials.rows, c.credentialHash ≠ digestOf u := by
  by_contra hall
  push Not at hall
  choose row hrow hhash using hall
  have hinjective : Function.Injective fun u => (row u).pairingId := by
    intro u v huv
    obtain ⟨pu, -, hpu, hbu, -⟩ := h.bound (hrow u)
    obtain ⟨pv, -, hpv, hbv, -⟩ := h.bound (hrow v)
    have hsame : [row u] = [row v] := by
      rw [← hbu.credentials, ← hbv.credentials, hpu, hpv]
      exact congrArg db.credentialsOf huv
    refine digestOf_injective ?_
    rw [← hhash u, ← hhash v, List.singleton_inj.1 hsame]
  obtain ⟨u, hu⟩ := (Finite.injective_iff_surjective.1 hinjective) p.id
  have hown : row u ∈ db.credentialsOf p.id := List.mem_filter.2 ⟨hrow u, decide_eq_true hu⟩
  rw [hnone] at hown
  cases hown

/-! ### Probes that are accepted -/

/-- The documents of an enrollment probe pass their checks. -/
structure ProbeValid (node : Node) : Prop where
  config : (NodeConfig.fromNode node).validate = .ok ()
  inventory : (NodeInventory.fromNode node).validate = .ok ()
  telemetry : (probeTelemetry node .pairingProbe (.ofTimestamp 0)).validate (.fromNode node) = .ok ()

theorem incrementWhen_isOk_iff {changed : Bool} (db : Db) :
    (∃ db', incrementWhen changed db = .ok db') ↔ changed = false ∨ db.fleetRevision < maxSafeJsonInteger := by
  cases changed with
  | false => exact ⟨fun _ => .inl rfl, fun _ => ⟨db, rfl⟩⟩
  | true =>
    have hiff : ∀ db', incrementWhen true db = .ok db' ↔
        db.fleetRevision < maxSafeJsonInteger ∧ db' = { db with fleetRevision := db.fleetRevision + 1 } :=
      fun db' => incrementFleetRevision_eq_ok
    constructor
    · rintro ⟨db', h⟩
      exact .inr ((hiff db').1 h).1
    · rintro (h | h)
      · cases h
      · exact ⟨_, (hiff _).2 ⟨h, rfl⟩⟩

/-- The configuration that a probe is merged with, and whether the probe brings anything new. -/
theorem probed_config {node : Node} (hsound : (db.nodeRows node.id).Sound node.id) :
    let config := match db.nodeConfigs.find fun r => r.nodeId = node.id with
      | some existing => existing.document
      | none => NodeConfig.fromNode node
    ((NodeConfig.fromNode node).validate = .ok () → config.validate = .ok ()) ∧
    ((decide (Option.map NodeConfigRow.document (db.nodeConfigs.find fun r => decide (r.nodeId = node.id)) ≠ some config) ||
      decide (Option.map NodeInventoryRow.document (db.nodeInventories.find fun r => decide (r.nodeId = node.id)) ≠
        some (NodeInventory.fromNode node))) = false ↔ db.inventoryOf node.id = some (.fromNode node)) := by
  have hinventory : db.inventoryOf node.id = (db.nodeInventories.find fun r => r.nodeId = node.id).map
    NodeInventoryRow.document := rfl
  generalize hrows : db.nodeRows node.id = rows at hsound
  have hconfigs : (db.nodeConfigs.find fun r => r.nodeId = node.id) = rows.config := congrArg NodeRows.config hrows
  have hinventories : (db.nodeInventories.find fun r => r.nodeId = node.id) = rows.inventory :=
    congrArg NodeRows.inventory hrows
  simp only [hinventory, hconfigs, hinventories]
  cases hsound with
  | absent => exact ⟨fun h => h, by simp⟩
  | described d => exact ⟨fun _ => d.merges.config, by simp⟩

/-- A valid probe is written, unless its node is the nil node, or it would raise a revision that cannot be raised. -/
theorem upsertNodeTx_isOk_iff {node : Node} (hsound : (db.nodeRows node.id).Sound node.id) :
    (∃ db', upsertNodeTx env db node .pairingProbe = .ok db') ↔ ProbeValid node ∧ node.id.isNil = false ∧
      (db.fleetRevision < maxSafeJsonInteger ∨ db.inventoryOf node.id = some (.fromNode node)) := by
  obtain ⟨hvalid, hchanged⟩ := probed_config hsound
  simp only [upsertNodeTx, bind_eq_ok, mapError_eq_ok, reduceCtorEq, if_true, if_false, decide_false, Bool.false_or,
    Bool.false_and]
  constructor
  · rintro ⟨db', _, hconfig, _, hinventory, _, htelemetry, view, hmerge, document, -, hinc⟩
    refine ⟨⟨hconfig, hinventory, htelemetry⟩, (merge_eq_ok.1 hmerge).1, ?_⟩
    rcases (incrementWhen_isOk_iff _).1 ⟨db', hinc⟩ with hsame | hlimit
    · exact .inr (hchanged.1 hsame)
    · exact .inl hlimit
  · rintro ⟨hprobe, hid, hroom⟩
    obtain ⟨view, document, hmerge, hdocument, -⟩ := Merges.merge
      ⟨hid, hvalid hprobe.config, hprobe.inventory, hprobe.telemetry⟩ (.ofTimestamp 0) (.ofTimestamp 0) nodeFreshnessTtl
    have hwritten := fun row config inventory telemetry =>
      (incrementWhen_isOk_iff (writeNodeDocuments db row config inventory telemetry)).2 (hroom.symm.imp_left hchanged.2)
    obtain ⟨db', hinc⟩ := hwritten _ _ _ _
    exact ⟨db', (), hprobe.config, (), hprobe.inventory, (), hprobe.telemetry, view, hmerge, document, hdocument, hinc⟩

/-- The probe of some worker can be recorded: the fleet revision can be raised, or the probe brings the inventory that is
stored. -/
def Recordable (db : Db) (id : Uuid) : Prop :=
  db.fleetRevision < maxSafeJsonInteger ∨
    ∃ node : Node, isManaged node.transport = true ∧ db.inventoryOf id = some (.fromNode node)

/-- Some worker can be the node of a pairing. -/
def Redeemable (db : Db) (id : Uuid) : Prop := id.isNil = false ∧ Recordable db id

/-- A probe with the inventory of the node, and nothing of it available. -/
def idleProbe (id : Uuid) (node : Node) : Node :=
  { nodeFromProbe id none sampleProbe "https://c" false with
    transport := node.transport
    os := node.os
    arch := node.arch
    capabilities := node.capabilities
    resources := { node.resources with
      availableCpuCores := 0, availableMemoryMib := 0, availableDiskMib := 0,
      gpus := node.resources.gpus.map fun gpu => { gpu with availableVramMib := 0 } } }

theorem fromNode_idleProbe (id : Uuid) (node : Node) : NodeInventory.fromNode (idleProbe id node) = .fromNode node := by
  simp [NodeInventory.fromNode, idleProbe]

/-- The configuration of a node at its enrollment. -/
def plainConfig : NodeConfig := .fromNode (nodeFromProbe .nil none sampleProbe "https://c" false)

theorem validate_plainConfig : plainConfig.validate = .ok () := by decide +kernel

theorem probeValid_idleProbe {id : Uuid} {node : Node} (h : (NodeInventory.fromNode node).validate = .ok ()) :
    ProbeValid (idleProbe id node) := by
  refine ⟨validate_plainConfig, by rw [fromNode_idleProbe, h], ?_⟩
  rw [fromNode_idleProbe]
  have hgpus : (probeTelemetry (idleProbe id node) .pairingProbe (.ofTimestamp 0)).gpus =
      node.resources.gpus.map fun gpu => ⟨0, gpu.allocatable, none, none, none⟩ := by
    simp [probeTelemetry, NodeTelemetry.fromNode, idleProbe]
  have hnameless : (probeTelemetry (idleProbe id node) .pairingProbe (.ofTimestamp 0)).gpus.filterMap
      GpuTelemetry.stableId = [] := by
    rw [hgpus, List.filterMap_map, List.filterMap_eq_nil_iff]
    exact fun _ _ => rfl
  simp only [NodeTelemetry.validate, NodeTelemetry.validateShape, seq_eq_ok, validateGpus_eq_ok, ensure_eq_ok, Bool.and_eq_true,
    decide_eq_true_eq, gpusMatch_iff, Nat.zero_add, hnameless]
  have hload : sampleProbe.load.cpuPercent ≤ 100 := by decide
  refine ⟨⟨⟨hload, hload⟩, rfl, rfl, ⟨rfl, List.nodup_nil⟩, ?_, List.nodup_nil, nofun⟩, ⟨⟨?_, ?_⟩, ?_⟩, ?_, ?_⟩
  · intro gpu hgpu
    rw [hgpus] at hgpu
    obtain ⟨_, -, rfl⟩ := List.mem_map.1 hgpu
    exact ⟨rfl, rfl, nofun⟩
  · exact Nat.zero_le _
  · exact Nat.zero_le _
  · exact Nat.zero_le _
  · rw [hgpus]
    simp [NodeInventory.fromNode]
  · intro i gpu hget
    simp only [NodeInventory.fromNode, List.getElem?_map, Option.map_eq_some_iff] at hget
    obtain ⟨device, hdevice, rfl⟩ := hget
    simp only [NodeTelemetry.gpuForInventory, hgpus, List.getElem?_map, hdevice, Option.map_some, Option.any_some]
    exact decide_eq_true (Nat.zero_le _)

/-- The node of a redeemable pairing has a probe that is accepted. -/
theorem exists_probe (env : Env) (db : Db) {id : Uuid} (hsound : (db.nodeRows id).Sound id) (h : Redeemable db id) :
    ∃ node : Node, node.id = id ∧ isManaged node.transport = true ∧ ∃ db', upsertNodeTx env db node .pairingProbe = .ok db' := by
  obtain ⟨hnil, hroom⟩ := h
  -- with room for a revision any probe will do, without it one that brings the stored inventory
  obtain ⟨node, hmanaged, hinventory, hroom⟩ : ∃ node : Node, isManaged node.transport = true ∧
      (NodeInventory.fromNode node).validate = .ok () ∧
      (db.fleetRevision < maxSafeJsonInteger ∨ db.inventoryOf id = some (.fromNode node)) := by
    rcases hroom with hlimit | ⟨node, hmanaged, hstored⟩
    · exact ⟨nodeFromProbe .nil none sampleProbe "https://c" false, rfl, by decide +kernel, .inl hlimit⟩
    · refine ⟨node, hmanaged, ?_, .inr hstored⟩
      have hrow : (db.nodeRows id).inventory.map NodeInventoryRow.document = some (.fromNode node) := hstored
      generalize db.nodeRows id = rows at hsound hrow
      cases hsound with
      | absent => cases hrow
      | described d =>
        rw [← Option.some.inj hrow]
        exact d.merges.inventory
  refine ⟨idleProbe id node, rfl, hmanaged, (upsertNodeTx_isOk_iff hsound).2 ⟨probeValid_idleProbe hinventory, hnil, ?_⟩⟩
  rw [fromNode_idleProbe]
  exact hroom

/-! ### The code of a pairing -/

/-- The pairing is one that the code may consume: nothing has happened to it, and it has not expired. -/
structure Unspent (env : Env) (code : String) (p : PairingRow) : Prop where
  codeHash : p.codeHash = secretHash code
  untouched : p.untouched = true
  unexpired : env.now.timestamp < p.expiresAt

theorem PairingRow.clash_of_codeHash (a b : PairingRow) (h : a.codeHash = b.codeHash) : Schema.clash a b = true := by
  simp [Schema.clash, h]

theorem PairingRow.untouched_iff : p.untouched = true ↔ p.usedAt = none ∧ p.acknowledgedAt = none ∧ p.revokedAt = none ∧
    p.failedAt = none ∧ p.failureCode = none ∧ p.nodeId = none := by
  simp only [PairingRow.untouched, Bool.and_eq_true, Option.isNone_iff_eq_none, and_assoc]

/-- The pairing of a code, as far as neither its consumption nor its end is concerned. -/
theorem find_pairing (hp : p ∈ db.pairings.rows) (hcode : p.codeHash = secretHash code) (hrevoked : p.revokedAt = none)
    (hlive : env.now.timestamp < p.expiresAt) (hfailed : p.failedAt = none) (hfailure : p.failureCode = none) :
    (db.pairings.find fun p => p.codeHash = secretHash code && p.revokedAt.isNone && env.now.timestamp < p.expiresAt &&
      p.failedAt.isNone && p.failureCode.isNone) = some p := by
  refine Table.find_of_mem (fun a b ha hb => PairingRow.clash_of_codeHash a b ?_) hp ?_
  · simp only [Bool.and_eq_true, decide_eq_true_eq] at ha hb
    exact ha.1.1.1.1.trans hb.1.1.1.1.symm
  · simp [hcode, hrevoked, hlive, hfailed, hfailure]

theorem Records.unused (h : Records db R) (hp : p ∈ db.pairings.rows) (hused : p.usedAt = none) : Unused db p := by
  obtain ⟨e, -, hrec⟩ := h.entry hp
  cases hrec with
  | issued unused | closed unused => exact unused
  | staged bound | active bound => exact absurd hused bound.usedAt

theorem WorkerCredentialRow.clash_eq_false {a b : WorkerCredentialRow} : Schema.clash a b = false ↔
    a.id ≠ b.id ∧ a.credentialHash ≠ b.credentialHash ∧ (a.active = true → b.active = true → a.nodeId ≠ b.nodeId) := by
  simp only [Schema.clash, Bool.or_eq_false_iff, decide_eq_false_iff_not, Bool.and_eq_false_iff, and_assoc]
  refine and_congr_right fun _ => and_congr_right fun _ => ?_
  cases a.active <;> cases b.active <;> simp

/-- The first use of an unspent pairing, with a digest that no credential has. -/
theorem consumeFresh_isOk {hash : String} (h : Records db R)
    (hsound : (db.nodeRows p.intendedNodeId).Sound p.intendedNodeId) (hp : p ∈ db.pairings.rows) (ho : Unspent env code p)
    (hid : ∀ c ∈ db.workerCredentials.rows, c.id ≠ env.newV4 .credential)
    (hhash : ∀ c ∈ db.workerCredentials.rows, c.credentialHash ≠ hash) (hredeem : Redeemable db p.intendedNodeId) :
    ∃ node : Node, node.id = p.intendedNodeId ∧ isManaged node.transport = true ∧
      ∃ result, consumeFresh env db p hash node = .ok result := by
  obtain ⟨hused, hack, -, -, -, hnodeId⟩ := PairingRow.untouched_iff.1 ho.untouched
  have hnone := (h.unused hp hused).credentials
  generalize hconsumes : (fun r : PairingRow => decide (r.id = p.id) && decide (r.intendedNodeId = p.intendedNodeId) &&
    decide (r.codeHash = p.codeHash) && r.untouched && decide (env.now.timestamp < r.expiresAt) &&
    (db.credentialsOf r.id).isEmpty) = consumes
  have hone : db.pairings.rows.countP consumes = 1 := by
    refine Table.countP_eq_one (fun a b ha hb => PairingRow.clash_of_id a b ?_) hp ?_
    · simp only [← hconsumes, Bool.and_eq_true, decide_eq_true_eq] at ha hb
      exact ha.1.1.1.1.1.trans hb.1.1.1.1.1.symm
    · simp [← hconsumes, ho.untouched, ho.unexpired, hnone]
  have hany : (db.workerCredentials.any fun c => c.credentialHash = hash) = false :=
    Table.any_eq_false.2 fun c hc => decide_eq_false (hhash c hc)
  obtain ⟨node, hnode, hmanaged, db₁, hprobe⟩ := exists_probe env { db with
    pairings := db.pairings.modify consumes
      (fun r => { r with usedAt := some env.now.timestamp, nodeId := some p.intendedNodeId }) (fun _ _ => rfl) } hsound hredeem
  obtain ⟨-, hcredentials, -⟩ := upsertNodeTx_probed hprobe nofun
  obtain ⟨credentials, hinsert⟩ := Table.insert_isSome (t := db₁.workerCredentials)
    (r := ⟨env.newV4 .credential, p.id, p.intendedNodeId, hash, env.now.timestamp, none, none, none⟩) fun c hc => by
      rw [hcredentials] at hc
      exact WorkerCredentialRow.clash_eq_false.2 ⟨hid c hc, hhash c hc, nofun⟩
  refine ⟨node, hnode, hmanaged, ?_⟩
  have hself : ({ node with id := p.intendedNodeId } : Node) = node := by rw [← hnode]
  simp only [consumeFresh, bind_eq_ok, ensure_eq_ok, pure_eq_ok, inserted_eq_ok, timestamp_eq_ok, hconsumes, hself]
  exact ⟨_, (), by simp [hack, hnodeId, hnone], (), by simp [hany], (), decide_eq_true hone, db₁, hprobe, credentials, hinsert, _,
    ⟨env.onCalendar, rfl⟩, rfl⟩

/-- The pairing has been consumed with the code, and its worker may repeat the consumption. -/
structure Awaits (env : Env) (code : String) (p : PairingRow) : Prop where
  codeHash : p.codeHash = secretHash code
  used : p.usedAt ≠ none
  unacknowledged : p.acknowledgedAt = none
  unrevoked : p.revokedAt = none
  unexpired : env.now.timestamp < p.expiresAt

/-- A consumed pairing that awaits its acknowledgement has one credential, which is staged. -/
theorem Awaits.bound (ha : Awaits env code p) (h : Records db R) (hp : p ∈ db.pairings.rows) :
    ∃ c, Bound db p c ∧ c.activatedAt = none ∧ c.revokedAt = none := by
  obtain ⟨e, -, hrec⟩ := h.entry hp
  cases hrec with
  | issued unused | closed unused => exact absurd unused.usedAt ha.used
  | @staged c bound => exact ⟨c, bound, bound.unactivated_iff.2 ha.unacknowledged, bound.unrevoked_iff.2 ha.unrevoked⟩
  | active bound hack => exact absurd ha.unacknowledged hack

/-- The gate opens for a code that a worker may still use. -/
theorem preauthorizePairing_iff (h : Records db R) : preauthorizePairing env db code = .ok () ↔
    ∃ p ∈ db.pairings.rows, Unspent env code p ∨ Awaits env code p := by
  simp only [preauthorizePairing, ensure_eq_ok, Table.any_eq_true, Bool.and_eq_true, Bool.or_eq_true, decide_eq_true_eq,
    Option.isNone_iff_eq_none, Option.isSome_iff_ne_none]
  constructor
  · rintro ⟨p, hp, ⟨⟨⟨⟨hcode, hrevoked⟩, hlive⟩, hfailed⟩, hfailure⟩, hfresh | hconsumed⟩
    · obtain ⟨⟨⟨hused, hack⟩, hnode⟩, -⟩ := hfresh
      exact ⟨p, hp, .inl ⟨hcode, PairingRow.untouched_iff.2 ⟨hused, hack, hrevoked, hfailed, hfailure, hnode⟩, hlive⟩⟩
    · obtain ⟨⟨⟨⟨⟨hused, hack⟩, -⟩, -⟩, -⟩, -⟩ := hconsumed
      exact ⟨p, hp, .inr ⟨hcode, hused, hack, hrevoked, hlive⟩⟩
  · rintro ⟨p, hp, ho | ha⟩
    · obtain ⟨hused, hack, hrevoked, hfailed, hfailure, hnode⟩ := PairingRow.untouched_iff.1 ho.untouched
      have hnone := (h.unused hp hused).credentials
      exact ⟨p, hp, ⟨⟨⟨⟨ho.codeHash, hrevoked⟩, ho.unexpired⟩, hfailed⟩, hfailure⟩, .inl ⟨⟨⟨hused, hack⟩, hnode⟩, by rw [hnone]; rfl⟩⟩
    · obtain ⟨c, hbound, hactivated, hrevoked⟩ := ha.bound h hp
      have hmem := hbound.mem
      refine ⟨p, hp, ⟨⟨⟨⟨ha.codeHash, ha.unrevoked⟩, ha.unexpired⟩, hbound.failedAt⟩, hbound.failureCode⟩, .inr
        ⟨⟨⟨⟨⟨ha.used, ha.unacknowledged⟩, hbound.nodeId⟩, ?_⟩, c, hmem.1, ⟨⟨hmem.2, ?_⟩, hactivated⟩, hrevoked⟩, ?_⟩⟩
      · rw [hbound.nodeId]
        exact hbound.node
      · rw [hbound.nodeId, hbound.owner]
      · rw [hbound.credentials]
        rfl

/-- Some worker can use the code now. -/
def Consumable (env : Env) (db : Db) (code : String) : Prop :=
  ∃ pairingId nodeId hash node result, consumePairing env db code pairingId nodeId hash node = .ok result

theorem consumable_of_awaits (h : Records db R) (hd : Enrolled db) (hp : p ∈ db.pairings.rows) (ha : Awaits env code p) :
    Consumable env db code := by
  obtain ⟨c, hbound, hactivated, hrevoked⟩ := ha.bound h hp
  obtain ⟨hc, hown⟩ := hbound.mem
  obtain ⟨t, hused⟩ := Option.ne_none_iff_exists'.1 ha.used
  have hfind := find_pairing hp ha.codeHash ha.unrevoked ha.unexpired hbound.failedAt hbound.failureCode
  have hexact : (db.workerCredentials.any fun c' => c'.pairingId = p.id && c'.nodeId = p.intendedNodeId &&
      c'.credentialHash = c.credentialHash && c'.activatedAt.isNone && c'.revokedAt.isNone) = true :=
    Table.any_eq_true.2 ⟨c, hc, by simp [hown, hbound.owner, hactivated, hrevoked]⟩
  obtain ⟨paired, hreplay⟩ : ∃ paired, replayConsumption db p t c.credentialHash = .ok paired := by
    simp only [replayConsumption, bind_eq_ok, ensure_eq_ok, required_eq_ok, pure_eq_ok, timestamp_eq_ok]
    refine ⟨_, p.intendedNodeId, hbound.nodeId, (), ?_, (), hexact, _, ⟨hd.used p hp t hused, rfl⟩, rfl⟩
    simp [ha.unacknowledged, hbound.credentials, hbound.node]
  refine ⟨p.id, p.intendedNodeId, c.credentialHash, nodeFromProbe p.intendedNodeId none sampleProbe "https://c" false,
    (db, paired), ?_⟩
  simp only [consumePairing, bind_eq_ok, ensure_eq_ok, required_eq_ok]
  refine ⟨(), rfl, (), hd.hashes c hc, p, hfind, (), by simp [nodeFromProbe], ?_⟩
  simp only [hused, hreplay]
  rfl

/-- A code can be used as long as the gate is open, if the node of an unspent pairing can be enrolled. -/
theorem consumable_iff (h : Records db R) (hd : Enrolled db) (hsound : ∀ id, (db.nodeRows id).Sound id)
    (hid : ∀ c ∈ db.workerCredentials.rows, c.id ≠ env.newV4 .credential) : Consumable env db code ↔
      ∃ p ∈ db.pairings.rows, (Unspent env code p ∧ Redeemable db p.intendedNodeId) ∨ Awaits env code p := by
  constructor
  · rintro ⟨pairingId, nodeId, hash, node, ⟨db', paired⟩, hconsume⟩
    simp only [consumePairing, bind_eq_ok, ensure_eq_ok, required_eq_ok] at hconsume
    obtain ⟨-, hmanaged, -, -, p, hfind, -, -, hconsume⟩ := hconsume
    obtain ⟨hp, hopen⟩ := Table.find_some hfind
    simp only [Bool.and_eq_true, decide_eq_true_eq, Option.isNone_iff_eq_none] at hopen
    obtain ⟨⟨⟨⟨hcode, hrevoked⟩, hlive⟩, hfailed⟩, hfailure⟩ := hopen
    refine ⟨p, hp, ?_⟩
    split at hconsume
    · rename_i t hused
      simp only [replayConsumption, bind_eq_ok, ensure_eq_ok, Bool.and_eq_true, Option.isNone_iff_eq_none] at hconsume
      obtain ⟨_, ⟨_, -, -, ⟨⟨⟨hack, -⟩, -⟩, -⟩, -⟩, -⟩ := hconsume
      exact .inr ⟨hcode, by rw [hused]; exact Option.some_ne_none t, hack, hrevoked, hlive⟩
    · rename_i hused
      simp only [consumeFresh, bind_eq_ok, ensure_eq_ok, Bool.and_eq_true, Option.isNone_iff_eq_none] at hconsume
      obtain ⟨-, ⟨⟨hack, hnode⟩, -⟩, -, -, -, -, db₁, hprobe, -⟩ := hconsume
      refine .inl ⟨⟨hcode, PairingRow.untouched_iff.2 ⟨hused, hack, hrevoked, hfailed, hfailure, hnode⟩, hlive⟩, ?_⟩
      obtain ⟨-, hnil, hroom⟩ := (upsertNodeTx_isOk_iff (hsound p.intendedNodeId)).1 ⟨db₁, hprobe⟩
      exact ⟨hnil, hroom.imp_right fun hstored => ⟨_, hmanaged, hstored⟩⟩
  · rintro ⟨p, hp, ⟨ho, hredeem⟩ | ha⟩
    · obtain ⟨hused, -, hrevoked, hfailed, hfailure, -⟩ := PairingRow.untouched_iff.1 ho.untouched
      obtain ⟨u, hu⟩ := exists_digest h (h.unused hp hused).credentials
      obtain ⟨node, hnode, hmanaged, result, hfresh⟩ := consumeFresh_isOk h (hsound p.intendedNodeId) hp ho hid hu hredeem
      have hfind := find_pairing hp ho.codeHash hrevoked ho.unexpired hfailed hfailure
      refine ⟨p.id, p.intendedNodeId, digestOf u, node, result, ?_⟩
      simp only [consumePairing, bind_eq_ok, ensure_eq_ok, required_eq_ok]
      refine ⟨(), hmanaged, (), validSha256_digestOf u, p, hfind, (), by simp [hnode], ?_⟩
      simp only [hused]
      exact hfresh
    · exact consumable_of_awaits h hd hp ha

/-! ### The credential of an acknowledgement -/

/-- The staged credential and the pairing of an enrollment that can be acknowledged for the first time. -/
structure Staged (db : Db) (p : PairingRow) (c : WorkerCredentialRow) : Prop where
  pairing : p ∈ db.pairings.rows
  bound : Bound db p c
  unrevoked : p.revokedAt = none
  unacknowledged : p.acknowledgedAt = none

theorem Staged.columns (h : Staged db p c) : c ∈ db.workerCredentials.rows ∧ c.pairingId = p.id ∧ c.nodeId = p.intendedNodeId ∧
    c.activatedAt = none ∧ c.revokedAt = none :=
  ⟨h.bound.mem.1, h.bound.mem.2, h.bound.owner, h.bound.unactivated_iff.2 h.unacknowledged, h.bound.unrevoked_iff.2 h.unrevoked⟩

theorem Bound.sole (h : Bound db p c) : db.soleCredential c = true := by
  unfold Db.soleCredential
  rw [h.mem.2, h.credentials]
  simp

theorem Staged.bound_columns (h : Staged db p c) : p.bound p.intendedNodeId = true := by
  obtain ⟨t, hused⟩ := Option.ne_none_iff_exists'.1 h.bound.usedAt
  simp [PairingRow.bound, hused, h.unrevoked, h.bound.failedAt, h.bound.failureCode, h.bound.nodeId]

/-- A credential of the pairing that is the staged one. -/
theorem Staged.iff (h : Staged db p c) {c' : WorkerCredentialRow} (hc' : c' ∈ db.workerCredentials.rows) :
    c'.pairingId = p.id ↔ c' = c := by
  obtain ⟨hc, hown, -⟩ := h.columns
  constructor
  · intro hid
    have hmem : c' ∈ db.credentialsOf p.id := List.mem_filter.2 ⟨hc', decide_eq_true hid⟩
    rw [h.bound.credentials] at hmem
    exact List.mem_singleton.1 hmem
  · rintro rfl
    exact hown

/-- An UPDATE of times of credentials, after which no node has two that are active. -/
theorem update_credentials_isSome {t : Table WorkerCredentialRow} {q : WorkerCredentialRow → Bool}
    {f : WorkerCredentialRow → WorkerCredentialRow}
    (hf : ∀ c, (f c).id = c.id ∧ (f c).nodeId = c.nodeId ∧ (f c).credentialHash = c.credentialHash)
    (hactive : ∀ a ∈ t.rows, ∀ b ∈ t.rows, Schema.clash a b = false → a.nodeId = b.nodeId →
      (rewrite q f a).active = true → (rewrite q f b).active = true → False) : ∃ t', t.update q f = some t' := by
  have hkeeps : ∀ c, (rewrite q f c).id = c.id ∧ (rewrite q f c).nodeId = c.nodeId ∧
      (rewrite q f c).credentialHash = c.credentialHash := by
    intro c
    unfold rewrite
    split
    · exact hf c
    · exact ⟨rfl, rfl, rfl⟩
  refine Table.update_isSome fun a ha b hb hclash => ?_
  obtain ⟨hid, hhash, -⟩ := WorkerCredentialRow.clash_eq_false.1 hclash
  rw [WorkerCredentialRow.clash_eq_false, (hkeeps a).1, (hkeeps b).1, (hkeeps a).2.1, (hkeeps b).2.1, (hkeeps a).2.2,
    (hkeeps b).2.2]
  exact ⟨hid, hhash, fun hactive_a hactive_b hnode => hactive a ha b hb hclash hnode hactive_a hactive_b⟩

theorem WorkerCredentialRow.active_iff : c.active = true ↔ c.activatedAt ≠ none ∧ c.revokedAt = none := by
  simp [WorkerCredentialRow.active, Option.isSome_iff_ne_none]

/-- The other credentials of the node are retired before the staged one is activated, so no two are active together. -/
theorem activatePairing_isOk (now : Int) (h : Staged db p c) :
    ∃ db', activatePairing db now p.id p.intendedNodeId c.credentialHash = .ok db' := by
  obtain ⟨hc, hown, howner, hactivated, hrevoked⟩ := h.columns
  have hstaged : (db.workerCredentials.any fun c' => decide (c'.pairingId = p.id) && decide (c'.nodeId = p.intendedNodeId) &&
      decide (c'.credentialHash = c.credentialHash) && c'.activatedAt.isNone && c'.revokedAt.isNone && db.soleCredential c') = true :=
    Table.any_eq_true.2 ⟨c, hc, by simp [hown, howner, hactivated, hrevoked, h.bound.sole]⟩
  have hpending : (db.pairings.any fun a => decide (a.id = p.id) && a.bound p.intendedNodeId && a.acknowledgedAt.isNone) = true :=
    Table.any_eq_true.2 ⟨p, h.pairing, by simp [h.bound_columns, h.unacknowledged]⟩
  simp only [activatePairing, bind_eq_ok, ensure_eq_ok, required_eq_ok, pure_eq_ok, hstaged, hpending, h.bound.node,
    Bool.and_true]
  generalize hretires : (fun c' : WorkerCredentialRow => decide (c'.nodeId = p.intendedNodeId) && decide (c'.pairingId ≠ p.id) &&
    c'.revokedAt.isNone) = retires
  generalize hactivates : (fun c' : WorkerCredentialRow => decide (c'.pairingId = p.id) && decide (c'.nodeId = p.intendedNodeId) &&
    decide (c'.credentialHash = c.credentialHash) && c'.activatedAt.isNone && c'.revokedAt.isNone && db.soleCredential c') = activates
  have hretires_c : retires c = false := by simp [← hretires, hown]
  have hactivates_c : activates c = true := by simp [← hactivates, hown, howner, hactivated, hrevoked, h.bound.sole]
  obtain ⟨credentials, hretire⟩ : ∃ credentials, db.workerCredentials.update retires
      (fun c' => { c' with revokedAt := some now }) = some credentials := by
    refine update_credentials_isSome (fun _ => ⟨rfl, rfl, rfl⟩) fun a _ b _ hclash hnode ha hb => ?_
    have hbefore : ∀ a : WorkerCredentialRow, (rewrite retires (fun c' => { c' with revokedAt := some now }) a).active = true →
        a.active = true := by
      intro a ha
      unfold rewrite at ha
      split at ha
      · cases (WorkerCredentialRow.active_iff.1 ha).2
      · exact ha
    exact (WorkerCredentialRow.clash_eq_false.1 hclash).2.2 (hbefore a ha) (hbefore b hb) hnode
  -- of the credentials of the node, only the staged one is left unrevoked
  have hleft : ∀ a ∈ credentials.rows, a = c ∨ (a.pairingId ≠ p.id ∧ (a.nodeId = p.intendedNodeId → a.revokedAt ≠ none)) := by
    intro a ha
    obtain ⟨a₀, ha₀, rfl⟩ := (Table.mem_update hretire).1 ha
    by_cases hid : a₀.pairingId = p.id
    · rw [(h.iff ha₀).1 hid, rewrite_of_neg hretires_c]
      exact .inl rfl
    · refine .inr ?_
      unfold rewrite
      split
      · exact ⟨hid, fun _ => Option.some_ne_none now⟩
      · rename_i hnot
        refine ⟨hid, fun hnode hnone => hnot ?_⟩
        simp [← hretires, hnode, hid, hnone]
  have hmem : c ∈ credentials.rows := (Table.mem_update hretire).2 ⟨c, hc, rewrite_of_neg hretires_c⟩
  have hone : credentials.rows.countP activates = 1 := by
    refine Table.countP_eq_one (fun a b ha hb => ?_) hmem hactivates_c
    simp only [← hactivates, Bool.and_eq_true, decide_eq_true_eq] at ha hb
    simp [Schema.clash, ha.1.1.1.2, hb.1.1.1.2]
  obtain ⟨credentials', hactivate⟩ : ∃ credentials', credentials.update activates
      (fun c' => { c' with activatedAt := some now, lastUsedAt := some now }) = some credentials' := by
    refine update_credentials_isSome (fun _ => ⟨rfl, rfl, rfl⟩) fun a ha b hb hclash hnode hactive_a hactive_b => ?_
    obtain ⟨hid, -, hapart⟩ := WorkerCredentialRow.clash_eq_false.1 hclash
    have hother : ∀ a : WorkerCredentialRow, a.pairingId ≠ p.id ∨ a.nodeId ≠ p.intendedNodeId → activates a = false := by
      rintro a (hne | hne) <;> simp [← hactivates, hne]
    have hstays : ∀ a ∈ credentials.rows, a.nodeId = p.intendedNodeId →
        (rewrite activates (fun c' => { c' with activatedAt := some now, lastUsedAt := some now }) a).active = true → a = c := by
      intro a ha hnode hactive
      rcases hleft a ha with rfl | ⟨hne, hretired⟩
      · rfl
      · rw [rewrite_of_neg (hother a (.inl hne))] at hactive
        exact absurd (WorkerCredentialRow.active_iff.1 hactive).2 (hretired hnode)
    by_cases hnode' : a.nodeId = p.intendedNodeId
    · rw [hstays a ha hnode' hactive_a, hstays b hb (hnode.symm.trans hnode') hactive_b] at hid
      exact hid rfl
    · rw [rewrite_of_neg (hother a (.inr hnode'))] at hactive_a
      rw [rewrite_of_neg (hother b (.inr fun hb' => hnode' (hnode.trans hb')))] at hactive_b
      exact hapart hactive_a hactive_b hnode
  have hcredentials : credentials'.rows = db.workerCredentials.rows.map
      (rewrite activates (fun c' => { c' with activatedAt := some now, lastUsedAt := some now }) ∘
        rewrite retires fun c' => { c' with revokedAt := some now }) := by
    rw [Table.update_eq_some hactivate, Table.update_eq_some hretire, List.map_map]
  have hsole : ({ db with workerCredentials := credentials' } : Db).credentialsOf p.id =
      [{ c with activatedAt := some now, lastUsedAt := some now }] := by
    rw [credentialsOf_map hcredentials (fun c' => ?_), h.bound.credentials, List.map_singleton, Function.comp,
      rewrite_of_neg hretires_c, rewrite_of_pos hactivates_c]
    simp only [Function.comp, rewrite]
    split <;> split <;> rfl
  have hactive : (credentials'.any fun c' => decide (c'.pairingId = p.id) && decide (c'.nodeId = p.intendedNodeId) &&
      decide (c'.credentialHash = c.credentialHash) && c'.active) = true :=
    Table.any_eq_true.2 ⟨{ c with activatedAt := some now, lastUsedAt := some now },
      (Table.mem_update hactivate).2 ⟨c, hmem, rewrite_of_pos hactivates_c⟩,
      by simp [hown, howner, WorkerCredentialRow.active, hrevoked]⟩
  refine ⟨_, credentials, hretire, (), decide_eq_true hone, credentials', hactivate, (), decide_eq_true ?_, rfl⟩
  refine Table.countP_eq_one (fun a b ha hb => PairingRow.clash_of_id a b ?_) h.pairing ?_
  · simp only [Bool.and_eq_true, decide_eq_true_eq] at ha hb
    exact ha.1.1.1.1.1.trans hb.1.1.1.1.1.symm
  · have hnode : ({ db with workerCredentials := credentials' } : Db).nodeExists p.intendedNodeId = true := h.bound.node
    rw [hsole, hactive, hnode, h.bound_columns, h.unacknowledged]
    simp

/-- The gate opens for the credential of an enrollment that has not ended. -/
theorem preauthorizePairingAck_iff (h : Records db R) {credential : String} :
    preauthorizePairingAck db credential = .ok () ↔ ∃ p ∈ db.pairings.rows, ∃ c, Bound db p c ∧
      c.credentialHash = secretHash credential ∧ p.revokedAt = none := by
  simp only [preauthorizePairingAck, ensure_eq_ok, Table.any_eq_true, Bool.and_eq_true, decide_eq_true_eq,
    Option.isNone_iff_eq_none]
  constructor
  · rintro ⟨c, hc, ⟨⟨⟨hhash, hrevoked⟩, -⟩, -⟩, p', hp', ⟨hid', -⟩, -⟩
    obtain ⟨p, hp, hid, hbound, -⟩ := h.bound hc
    exact ⟨p, hp, c, hbound, hhash, hbound.unrevoked_iff.1 hrevoked⟩
  · rintro ⟨p, hp, c, hbound, hhash, hrevoked⟩
    obtain ⟨hc, hown⟩ := hbound.mem
    obtain ⟨t, hused⟩ := Option.ne_none_iff_exists'.1 hbound.usedAt
    refine ⟨c, hc, ⟨⟨⟨hhash, hbound.unrevoked_iff.2 hrevoked⟩, ?_⟩, hbound.sole⟩, p, hp, ⟨hown.symm, ?_⟩, ?_⟩
    · rw [hbound.owner]
      exact hbound.node
    · simp [PairingRow.bound, hused, hrevoked, hbound.failedAt, hbound.failureCode, hbound.nodeId, hbound.owner]
    · have hactivated := hbound.activated
      cases hack : p.acknowledgedAt <;> rw [hack] at hactivated <;> simp_all

/-- Some acknowledgement with the credential is accepted now. -/
def Acknowledgeable (env : Env) (db : Db) (credential : String) : Prop :=
  ∃ pairingId nodeId hash result, acknowledgePairing env db credential pairingId nodeId hash = .ok result

theorem Bound.acknowledgeable (h : Bound db p c) (hp : p ∈ db.pairings.rows) (hunrevoked : p.revokedAt = none) :
    acknowledgeable db p.id p.intendedNodeId c.credentialHash = some p := by
  obtain ⟨hc, hown⟩ := h.mem
  obtain ⟨t, hused⟩ := Option.ne_none_iff_exists'.1 h.usedAt
  have hrevoked := h.unrevoked_iff.2 hunrevoked
  simp only [CYC.acknowledgeable, Option.bind_eq_bind, Option.bind_eq_some_iff]
  refine ⟨c, Table.find_of_mem (fun a b ha hb => ?_) hc ?_, Table.find_of_mem (fun a b ha hb => ?_) hp ?_⟩
  · simp only [Bool.and_eq_true, decide_eq_true_eq] at ha hb
    simp [Schema.clash, ha.1.1.1.1.1, hb.1.1.1.1.1]
  · simp [hown, h.owner, hrevoked, h.sole, h.node]
  · simp only [Bool.and_eq_true, decide_eq_true_eq] at ha hb
    exact PairingRow.clash_of_id a b (ha.1.1.trans hb.1.1.symm)
  · simp [hown, PairingRow.bound, hused, hunrevoked, h.failedAt, h.failureCode, h.nodeId, h.activated]

theorem acknowledgeable_iff (h : Records db R) (hd : Enrolled db) {credential : String} :
    Acknowledgeable env db credential ↔ ∃ p ∈ db.pairings.rows, ∃ c, Bound db p c ∧
      c.credentialHash = secretHash credential ∧ p.revokedAt = none := by
  constructor
  · rintro ⟨pairingId, nodeId, hash, ⟨db', acknowledgement⟩, hack⟩
    simp only [acknowledgePairing, bind_eq_ok, ensure_eq_ok, required_eq_ok, Bool.and_eq_true, decide_eq_true_eq] at hack
    obtain ⟨-, ⟨-, hhash⟩, p', hfound, -⟩ := hack
    simp only [acknowledgeable, Option.bind_eq_bind, Option.bind_eq_some_iff] at hfound
    obtain ⟨c, hfound, -⟩ := hfound
    obtain ⟨hc, hcolumns⟩ := Table.find_some hfound
    simp only [Bool.and_eq_true, decide_eq_true_eq, Option.isNone_iff_eq_none] at hcolumns
    obtain ⟨p, hp, -, hbound, -⟩ := h.bound hc
    exact ⟨p, hp, c, hbound, hcolumns.1.1.1.1.1.trans hhash.symm, hbound.unrevoked_iff.1 hcolumns.1.1.2⟩
  · rintro ⟨p, hp, c, hbound, hhash, hunrevoked⟩
    have hfound := hbound.acknowledgeable hp hunrevoked
    have hvalid : validSha256 (secretHash credential) = true := isLowercaseSha256_hex _
    refine ⟨p.id, p.intendedNodeId, c.credentialHash, ?_⟩
    simp only [acknowledgePairing, bind_eq_ok, ensure_eq_ok, required_eq_ok]
    cases hack : p.acknowledgedAt with
    | none =>
      obtain ⟨db', hactivate⟩ := activatePairing_isOk env.now.timestamp ⟨hp, hbound, hunrevoked, hack⟩
      refine ⟨(db', ⟨p.id, p.intendedNodeId, c.credentialHash, .ofTimestamp env.now.timestamp⟩), (), by simp [hhash, hvalid], p,
        hfound, ?_⟩
      simp only [hack, hactivate, ok_bind, bind_eq_ok, pure_eq_ok, timestamp_eq_ok]
      exact ⟨_, ⟨env.onCalendar, rfl⟩, rfl⟩
    | some t =>
      refine ⟨(db, ⟨p.id, p.intendedNodeId, c.credentialHash, .ofTimestamp t⟩), (), by simp [hhash, hvalid], p, hfound, ?_⟩
      simp only [hack, bind_eq_ok, pure_eq_ok, timestamp_eq_ok]
      exact ⟨_, ⟨hd.acknowledged p hp t hack, rfl⟩, rfl⟩

/-! ### Both gates -/

/-- The head of an enrollment request is let through exactly if some body would be accepted, exactly if for every pairing
that the code may consume a worker can be recorded; that of an acknowledgement always is. -/
theorem enrollment_gates_exact (seed : String) (calls : List Call) (hdrawn : DrawsNodes calls) (env : Env)
    (hid : ∀ c ∈ (storeAfter seed calls).workerCredentials.rows, c.id ≠ env.newV4 .credential) :
    (∀ code, (preauthorizePairing env (storeAfter seed calls) code = .ok () ↔ Consumable env (storeAfter seed calls) code) ↔
      ∀ p ∈ (storeAfter seed calls).pairings.rows, Unspent env code p → Recordable (storeAfter seed calls) p.intendedNodeId) ∧
    ∀ credential, preauthorizePairingAck (storeAfter seed calls) credential = .ok () ↔
      Acknowledgeable env (storeAfter seed calls) credential := by
  obtain ⟨R, hrecords, -⟩ := records_storeAfter seed calls
  have henrolled := enrolled_storeAfter seed calls
  have hnodes := intendedNodes_after seed hdrawn
  refine ⟨fun code => ?_, fun credential => ?_⟩
  · rw [preauthorizePairing_iff hrecords, consumable_iff hrecords henrolled (nodeRows_sound_after seed calls) hid]
    constructor
    · intro hexact p hp ho
      obtain ⟨p', hp', hconsumable⟩ := hexact.1 ⟨p, hp, .inl ho⟩
      -- the code belongs to one pairing, and this one has not been consumed
      rcases hconsumable with ⟨ho', hredeem⟩ | ha'
      · cases Table.eq_of_clash hp' hp (PairingRow.clash_of_codeHash p' p (ho'.codeHash.trans ho.codeHash.symm))
        exact hredeem.2
      · cases Table.eq_of_clash hp' hp (PairingRow.clash_of_codeHash p' p (ha'.codeHash.trans ho.codeHash.symm))
        exact absurd (PairingRow.untouched_iff.1 ho.untouched).1 ha'.used
    · intro hrecord
      constructor
      · rintro ⟨p, hp, ho | ha⟩
        · exact ⟨p, hp, .inl ⟨ho, hnodes p hp, hrecord p hp ho⟩⟩
        · exact ⟨p, hp, .inr ha⟩
      · rintro ⟨p, hp, ⟨ho, -⟩ | ha⟩
        · exact ⟨p, hp, .inl ho⟩
        · exact ⟨p, hp, .inr ha⟩
  · rw [preauthorizePairingAck_iff hrecords, acknowledgeable_iff hrecords henrolled]

/-- A pairing is issued for node 1. -/
def issueCalls : List Call := [⟨envAt 1000 10, .createPairingFor ⟨some ⟨1⟩⟩ validRequest_one⟩]

def issuedCode : String := (envAt 1000 10).randomSecret

theorem issueCalls_checked :
    ((storeAfter "s" issueCalls).workerCredentials.rows.isEmpty &&
      decide ((storeAfter "s" issueCalls).fleetRevision < maxSafeJsonInteger) &&
      decide (preauthorizePairing (envAt 1000 11) (storeAfter "s" issueCalls) issuedCode = .ok ())) = true := by
  decide +kernel

theorem enrollment_gates_exact_issued : Consumable (envAt 1000 11) (storeAfter "s" issueCalls) issuedCode ∧
    (preauthorizePairingAck (storeAfter "s" issueCalls) "a" = .ok () ↔
      Acknowledgeable (envAt 1000 11) (storeAfter "s" issueCalls) "a") := by
  obtain ⟨⟨hempty, hroom⟩, hgate⟩ := by simpa only [Bool.and_eq_true, decide_eq_true_eq] using issueCalls_checked
  have hdrawn : DrawsNodes issueCalls := List.forall_mem_singleton.2 (by decide)
  have hexact := enrollment_gates_exact "s" issueCalls hdrawn (envAt 1000 11) fun c hc => by
    rw [List.isEmpty_iff.1 hempty] at hc
    cases hc
  exact ⟨((hexact.1 issuedCode).2 fun p hp _ => .inl hroom).1 hgate, hexact.2 "a"⟩

/-! ### The counter is spent

Whoever saves the configuration of a node again and again raises the fleet revision up to its limit. -/

/-- The enrollments and the inventories are the same. -/
structure SameEnrollments (db db' : Db) : Prop where
  pairings : db'.pairings = db.pairings
  credentials : db'.workerCredentials = db.workerCredentials
  inventories : db'.nodeInventories = db.nodeInventories

theorem exists_raised {seed : String} {calls : List Call} (hrows : (storeAfter seed calls).nodeConfigs.rows ≠ []) (n : Nat)
    (hn : (storeAfter seed calls).fleetRevision + n ≤ maxSafeJsonInteger) :
    ∃ later, DrawsNodes later ∧
      (storeAfter seed (calls ++ later)).fleetRevision = (storeAfter seed calls).fleetRevision + n ∧
      SameEnrollments (storeAfter seed calls) (storeAfter seed (calls ++ later)) ∧
      (storeAfter seed (calls ++ later)).nodeConfigs.rows ≠ [] := by
  induction n with
  | zero => exact ⟨[], by simp [DrawsNodes], by simp, ⟨by simp, by simp, by simp⟩, by simpa using hrows⟩
  | succ n ih =>
    obtain ⟨later, hdrawn, hrevision, hsame, hrows⟩ := ih (by omega)
    obtain ⟨row, hrow⟩ := List.exists_mem_of_ne_nil _ hrows
    have hpolicy : ∃ policy, effectiveCapacityPolicy plainConfig = .ok policy := exists_ok_of_isOk (by decide +kernel)
    obtain ⟨policy, hpolicy⟩ := hpolicy
    have haccepted := Provision.updateNodeConfig_isOk (envAt 1000 40) (nodeRows_sound_after seed _) (numbered_after seed _) hrow
      validate_plainConfig hpolicy
    obtain ⟨db', stored, hupdate⟩ := haccepted.2 (by omega)
    refine ⟨later ++ [⟨envAt 1000 40, .updateNodeConfig row.nodeId row.revision plainConfig⟩], ?_⟩
    have hstore : storeAfter seed (calls ++ (later ++ [⟨envAt 1000 40, .updateNodeConfig row.nodeId row.revision plainConfig⟩])) =
        db' := by
      rw [← List.append_assoc, storeAfter_append]
      exact step_eq (answering_eq_ok.2 ⟨stored, hupdate, rfl⟩)
    rw [hstore]
    obtain ⟨_, _, _, _, rfl⟩ := updateNodeConfig_eq_ok hupdate
    refine ⟨?_, ?_, ⟨hsame.pairings, hsame.credentials, hsame.inventories⟩, ?_⟩
    · exact List.forall_mem_append.2 ⟨hdrawn, List.forall_mem_singleton.2 rfl⟩
    · simp only [hrevision]
      omega
    · simpa [Table.modify] using hrows

/-- Node 1 is enrolled, and a pairing is issued for a new node. -/
def awaitedCalls : List Call :=
  enrollCalls 1000 10 ⟨1⟩ "a" ++ [⟨envAt 1000 30, .createPairingFor ⟨none⟩ validRequest_none⟩]

def awaitedCode : String := (envAt 1000 30).randomSecret

theorem awaitedCalls_checked :
    (!(storeAfter "s" awaitedCalls).nodeConfigs.rows.isEmpty &&
      decide ((storeAfter "s" awaitedCalls).fleetRevision ≤ maxSafeJsonInteger) &&
      ((storeAfter "s" awaitedCalls).workerCredentials.rows.all fun c => c.id ≠ (envAt 1000 31).newV4 .credential) &&
      ((storeAfter "s" awaitedCalls).pairings.rows.any fun p => p.codeHash = secretHash awaitedCode && p.untouched &&
        1000 < p.expiresAt && ((storeAfter "s" awaitedCalls).inventoryOf p.intendedNodeId).isNone)) = true := by
  decide +kernel

/-- A history that leads to the last fleet revision: the code of the pairing opens the gate, and no worker can consume it. -/
theorem spent_revisions_block : ∃ later, DrawsNodes (awaitedCalls ++ later) ∧
    (storeAfter "s" (awaitedCalls ++ later)).fleetRevision = maxSafeJsonInteger ∧
    preauthorizePairing (envAt 1000 31) (storeAfter "s" (awaitedCalls ++ later)) awaitedCode = .ok () ∧
    ¬Consumable (envAt 1000 31) (storeAfter "s" (awaitedCalls ++ later)) awaitedCode := by
  obtain ⟨⟨⟨hconfigs, hrevision⟩, hids⟩, hpairing⟩ := by simpa only [Bool.and_eq_true, decide_eq_true_eq] using awaitedCalls_checked
  obtain ⟨p, hp, hchecked⟩ := List.any_eq_true.1 hpairing
  obtain ⟨⟨⟨hcode, huntouched⟩, hlive⟩, hinventory⟩ := by
    simpa only [Bool.and_eq_true, decide_eq_true_eq, Option.isNone_iff_eq_none] using hchecked
  have hrows : (storeAfter "s" awaitedCalls).nodeConfigs.rows ≠ [] := by simpa using hconfigs
  have hrest : ∀ r m : Int, r ≤ m → r + ((m - r).toNat : Int) = m := by
    intro r m h
    omega
  obtain ⟨later, hdrawn, hraised, hsame, -⟩ := exists_raised hrows _ (hrest _ _ hrevision).le
  have hlimit : (storeAfter "s" (awaitedCalls ++ later)).fleetRevision = maxSafeJsonInteger := hraised.trans (hrest _ _ hrevision)
  obtain ⟨R, hrecords, -⟩ := records_storeAfter "s" (awaitedCalls ++ later)
  have hmem : p ∈ (storeAfter "s" (awaitedCalls ++ later)).pairings.rows := by rwa [hsame.pairings]
  have hfresh : ∀ c ∈ (storeAfter "s" (awaitedCalls ++ later)).workerCredentials.rows, c.id ≠ (envAt 1000 31).newV4 .credential := by
    rw [hsame.credentials]
    exact fun c hc => of_decide_eq_true (List.all_eq_true.1 hids c hc)
  have hunspent : Unspent (envAt 1000 31) awaitedCode p := ⟨hcode, huntouched, hlive⟩
  have hawaited : DrawsNodes awaitedCalls := by
    unfold DrawsNodes
    decide
  refine ⟨later, List.forall_mem_append.2 ⟨hawaited, hdrawn⟩, hlimit, (preauthorizePairing_iff hrecords).2 ⟨p, hmem, .inl hunspent⟩, ?_⟩
  rw [consumable_iff hrecords (enrolled_storeAfter "s" _) (nodeRows_sound_after "s" _) hfresh]
  rintro ⟨p', hp', ⟨ho, -, hroom | ⟨node, -, hnode⟩⟩ | ha⟩
  · exact absurd hroom hlimit.not_lt
  · cases Table.eq_of_clash hp' hmem (PairingRow.clash_of_codeHash p' p (ho.codeHash.trans hcode.symm))
    rw [Db.inventoryOf, hsame.inventories] at hnode
    cases hinventory.symm.trans hnode
  · cases Table.eq_of_clash hp' hmem (PairingRow.clash_of_codeHash p' p (ha.codeHash.trans hcode.symm))
    exact ha.used (PairingRow.untouched_iff.1 huntouched).1

end CYC
