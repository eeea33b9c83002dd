import ClusterYourCodex.Lib.Registry
import ClusterYourCodex.Fleet.Documents

/-! Enrollment as a registry. The pairings and credentials of a database record a registry of keys: one
entry for each pairing, with the hash of its credential as the key and the node as the principal. Each
pairing operation is one move of that registry, and every other call leaves the registry alone. -/

namespace CYC

open Checked Relational Registry

variable {e : Entry Uuid String} {g : WorkerCredentialRow → WorkerCredentialRow} {pairingId : Uuid} {hash : String}

/-- The registry of a database: entries by pairing, nodes as principals, credential hashes as keys. -/
abbrev Enrollments := Entries Uuid Uuid String

variable {env : Env} {db db' : Db} {now : Int} {p : PairingRow} {c : WorkerCredentialRow} {R : Enrollments}

/-! ### The rows of an entry -/

/-- No worker has consumed the pairing. -/
structure Unused (db : Db) (p : PairingRow) : Prop where
  usedAt : p.usedAt = none
  acknowledgedAt : p.acknowledgedAt = none
  nodeId : p.nodeId = none
  credentials : db.credentialsOf p.id = []

/-- The pairing is bound to its node, and the credential is its only one. -/
structure Bound (db : Db) (p : PairingRow) (c : WorkerCredentialRow) : Prop where
  usedAt : p.usedAt ≠ none
  nodeId : p.nodeId = some p.intendedNodeId
  failedAt : p.failedAt = none
  failureCode : p.failureCode = none
  node : db.nodeExists p.intendedNodeId = true
  credentials : db.credentialsOf p.id = [c]
  owner : c.nodeId = p.intendedNodeId
  revoked : c.revokedAt.isSome = p.revokedAt.isSome
  activated : c.activatedAt.isSome = p.acknowledgedAt.isSome

theorem Bound.unrevoked_iff (h : Bound db p c) : c.revokedAt = none ↔ p.revokedAt = none := by
  rw [← Option.isNone_iff_eq_none, ← Option.isNone_iff_eq_none, ← Option.not_isSome, ← Option.not_isSome, h.revoked]

theorem Bound.unactivated_iff (h : Bound db p c) : c.activatedAt = none ↔ p.acknowledgedAt = none := by
  rw [← Option.isNone_iff_eq_none, ← Option.isNone_iff_eq_none, ← Option.not_isSome, ← Option.not_isSome, h.activated]

def PairingRow.entry (p : PairingRow) (stage : Stage String) : Entry Uuid String :=
  ⟨p.intendedNodeId, p.expiresAt, stage, p.revokedAt.isSome⟩

/-- The row of a pairing and the rows of its credentials are those of an entry. -/
inductive Recorded (db : Db) (p : PairingRow) : Entry Uuid String → Prop
  | issued (unused : Unused db p) (failedAt : p.failedAt = none) (failureCode : p.failureCode = none) :
      Recorded db p (p.entry .issued)
  | closed {t code} (unused : Unused db p) (failedAt : p.failedAt = some t) (failureCode : p.failureCode = some code)
      (calendar : OnCalendar t) : Recorded db p (p.entry .closed)
  | staged {c : WorkerCredentialRow} (bound : Bound db p c) (acknowledgedAt : p.acknowledgedAt = none) :
      Recorded db p (p.entry (.staged c.credentialHash))
  | active {c : WorkerCredentialRow} (bound : Bound db p c) (acknowledgedAt : p.acknowledgedAt ≠ none) :
      Recorded db p (p.entry (.active c.credentialHash))

/-- The database records the registry, and no credential is without a pairing. -/
structure Records (db : Db) (R : Enrollments) : Prop where
  rows : ∀ id, Option.Rel (Recorded db) (db.pairings.lookup PairingRow.id id) (R id)
  owned : ∀ c ∈ db.workerCredentials.rows, ∃ p ∈ db.pairings.rows, p.id = c.pairingId

theorem records_empty (seed : String) : Records (.empty seed) fun _ => none := ⟨fun _ => .none, nofun⟩

/-- Every pairing has its entry. -/
theorem Records.entry (h : Records db R) (hp : p ∈ db.pairings.rows) : ∃ e, R p.id = some e ∧ Recorded db p e := by
  have hrel := h.rows p.id
  rw [pairing_of_mem hp] at hrel
  generalize R p.id = o at hrel
  cases hrel with
  | some hrecorded => exact ⟨_, rfl, hrecorded⟩

/-- Every entry has its pairing. -/
theorem Records.pairing (h : Records db R) {id : Uuid} (he : R id = some e) :
    ∃ p ∈ db.pairings.rows, p.id = id ∧ Recorded db p e := by
  have hrel := h.rows id
  rw [he] at hrel
  generalize hlookup : db.pairings.lookup PairingRow.id id = o at hrel
  cases hrel with
  | some hrecorded => exact ⟨_, (Table.lookup_some hlookup).1, (Table.lookup_some hlookup).2, hrecorded⟩

/-- Every credential is the one of a bound pairing, whose entry holds its hash. -/
theorem Records.bound (h : Records db R) (hc : c ∈ db.workerCredentials.rows) :
    ∃ p ∈ db.pairings.rows, p.id = c.pairingId ∧ Bound db p c ∧
      ((p.acknowledgedAt = none ∧ R p.id = some (p.entry (.staged c.credentialHash))) ∨
        (p.acknowledgedAt ≠ none ∧ R p.id = some (p.entry (.active c.credentialHash)))) := by
  obtain ⟨p, hp, hid⟩ := h.owned c hc
  obtain ⟨e, he, hrecorded⟩ := h.entry hp
  have hown : c ∈ db.credentialsOf p.id := List.mem_filter.2 ⟨hc, by simp [hid]⟩
  refine ⟨p, hp, hid, ?_⟩
  cases hrecorded with
  | issued unused | closed unused => rw [unused.credentials] at hown; cases hown
  | staged bound hack =>
    rw [bound.credentials, List.mem_singleton] at hown
    subst hown
    exact ⟨bound, .inl ⟨hack, he⟩⟩
  | active bound hack =>
    rw [bound.credentials, List.mem_singleton] at hown
    subst hown
    exact ⟨bound, .inr ⟨hack, he⟩⟩

/-! ### Rewriting rows -/

theorem credentialsOf_map (h : db'.workerCredentials.rows = db.workerCredentials.rows.map g)
    (hg : ∀ c, (g c).pairingId = c.pairingId) (id : Uuid) : db'.credentialsOf id = (db.credentialsOf id).map g := by
  unfold Db.credentialsOf
  rw [h, List.filter_map]
  congr 1
  refine List.filter_congr fun c _ => ?_
  simp [hg]

/-- What a rewriting of credentials leaves alone. -/
structure KeepsCredential (c c' : WorkerCredentialRow) : Prop where
  pairingId : c'.pairingId = c.pairingId
  nodeId : c'.nodeId = c.nodeId
  credentialHash : c'.credentialHash = c.credentialHash

theorem KeepsCredential.refl (c : WorkerCredentialRow) : KeepsCredential c c := ⟨rfl, rfl, rfl⟩

theorem keepsCredential_rewrite {q : WorkerCredentialRow → Bool} {f : WorkerCredentialRow → WorkerCredentialRow}
    (hf : ∀ c, KeepsCredential c (f c)) (c : WorkerCredentialRow) : KeepsCredential c (rewrite q f c) := by
  unfold rewrite
  split
  · exact hf c
  · exact .refl c

/-- An entry is recorded again when its pairing and its credential are revoked together, or neither. -/
theorem Recorded.revise (h : Recorded db p e) (at' : Option Int)
    (hcredentials : db'.credentialsOf p.id = (db.credentialsOf p.id).map g)
    (hg : ∀ c, Bound db p c → KeepsCredential c (g c) ∧ (g c).activatedAt.isSome = c.activatedAt.isSome ∧
      (g c).revokedAt.isSome = at'.isSome) (hnodes : ∀ id, db.nodeExists id = true → db'.nodeExists id = true) :
    Recorded db' { p with revokedAt := at' } { e with revoked := at'.isSome } := by
  have unused : Unused db p → Unused db' { p with revokedAt := at' } := fun h =>
    ⟨h.usedAt, h.acknowledgedAt, h.nodeId, by rw [hcredentials, h.credentials]; rfl⟩
  have bound : ∀ c, Bound db p c → Bound db' { p with revokedAt := at' } (g c) := fun c h =>
    { usedAt := h.usedAt
      nodeId := h.nodeId
      failedAt := h.failedAt
      failureCode := h.failureCode
      node := hnodes _ h.node
      credentials := by rw [hcredentials, h.credentials]; rfl
      owner := (hg c h).1.nodeId.trans h.owner
      revoked := (hg c h).2.2
      activated := (hg c h).2.1.trans h.activated }
  cases h with
  | issued h hf hcode => exact .issued (unused h) hf hcode
  | closed h hf hcode ht => exact .closed (unused h) hf hcode ht
  | staged h hack =>
    have := Recorded.staged (bound _ h) hack
    rwa [(hg _ h).1.credentialHash] at this
  | active h hack =>
    have := Recorded.active (bound _ h) hack
    rwa [(hg _ h).1.credentialHash] at this

theorem Recorded.entry_eq (h : Recorded db p e) : e = p.entry e.stage := by
  cases h <;> rfl

/-- An entry is recorded by the same pairing when its credential is rewritten without consequence. -/
theorem Recorded.keep (h : Recorded db p e) (hcredentials : db'.credentialsOf p.id = (db.credentialsOf p.id).map g)
    (hg : ∀ c, Bound db p c → KeepsCredential c (g c) ∧ (g c).activatedAt.isSome = c.activatedAt.isSome ∧
      (g c).revokedAt.isSome = c.revokedAt.isSome) (hnodes : ∀ id, db.nodeExists id = true → db'.nodeExists id = true) :
    Recorded db' p e := by
  have := h.revise p.revokedAt hcredentials
    (fun c hc => ⟨(hg c hc).1, (hg c hc).2.1, (hg c hc).2.2.trans hc.revoked⟩) hnodes
  rw [h.entry_eq] at this
  rw [h.entry_eq]
  exact this

theorem Recorded.same (h : Recorded db p e) (hcredentials : db'.workerCredentials = db.workerCredentials)
    (hnodes : db'.nodes = db.nodes) : Recorded db' p e := by
  refine h.keep (g := fun c => c) ?_ (fun c _ => ⟨.refl c, rfl, rfl⟩) fun id hid => ?_
  · rw [Db.credentialsOf, hcredentials, List.map_id']
    rfl
  · rw [Db.nodeExists, hnodes]
    exact hid

variable {f : PairingRow → PairingRow} {t : DateTime} {node : Node} {paired : PairedWorker} {nodeId : Uuid}

/-- Rewriting pairings row by row: the registry changes entry by entry. -/
theorem Records.map (h : Records db R) (next : Uuid → Entry Uuid String → Entry Uuid String)
    (hpairings : db'.pairings.rows = db.pairings.rows.map f) (hf : ∀ p, (f p).id = p.id)
    (howned : ∀ c ∈ db'.workerCredentials.rows, ∃ p ∈ db.pairings.rows, p.id = c.pairingId)
    (hrecorded : ∀ p ∈ db.pairings.rows, ∀ e, R p.id = some e → Recorded db p e → Recorded db' (f p) (next p.id e)) :
    Records db' fun id => (R id).map (next id) := by
  constructor
  · intro id
    have hlookup : db'.pairings.lookup PairingRow.id id = (db.pairings.lookup PairingRow.id id).map f := by
      unfold Table.lookup Table.find
      rw [hpairings, List.find?_map]
      congr 2
      funext p
      simp [hf]
    have hrel := h.rows id
    rw [hlookup]
    cases hl : db.pairings.lookup PairingRow.id id with
    | none =>
      rw [hl] at hrel
      cases he : R id with
      | none => exact .none
      | some e => rw [he] at hrel; cases hrel
    | some p =>
      obtain ⟨hp, rfl⟩ := Table.lookup_some hl
      obtain ⟨e, he, hrec⟩ := h.entry hp
      rw [he]
      exact .some (hrecorded p hp e he hrec)
  · intro c hc
    obtain ⟨p, hp, hid⟩ := howned c hc
    exact ⟨f p, hpairings ▸ List.mem_map_of_mem hp, by rw [hf, hid]⟩

/-- Rewritten credentials are still those of pairings. -/
theorem Records.owned_map (h : Records db R)
    (hcredentials : db'.workerCredentials.rows = db.workerCredentials.rows.map g)
    (hg : ∀ c, (g c).pairingId = c.pairingId) :
    ∀ c ∈ db'.workerCredentials.rows, ∃ p ∈ db.pairings.rows, p.id = c.pairingId := by
  intro c hc
  rw [hcredentials, List.mem_map] at hc
  obtain ⟨c₀, hc₀, rfl⟩ := hc
  rw [hg]
  exact h.owned c₀ hc₀

/-- Calls that spare enrollment keep the registry. -/
theorem Records.spared (h : Records db R) (hspared : Spared db db') : Records db' R := by
  obtain ⟨henrollment, ⟨time, hcredentials⟩, hnodes⟩ := hspared
  have := h.map (f := id) (fun _ e => e) (by rw [List.map_id]; exact congrArg (fun e => e.1.rows) henrollment) (fun _ => rfl)
    (h.owned_map hcredentials fun _ => rfl) ?_
  · simpa using this
  · intro p _ e _ hrec
    exact hrec.keep (credentialsOf_map hcredentials (fun _ => rfl) p.id) (fun c _ => ⟨⟨rfl, rfl, rfl⟩, rfl, rfl⟩) hnodes

theorem Bound.mem (h : Bound db p c) : c ∈ db.workerCredentials.rows ∧ c.pairingId = p.id := by
  have hown : c ∈ db.credentialsOf p.id := by rw [h.credentials]; exact List.mem_singleton_self c
  obtain ⟨hmem, hid⟩ := List.mem_filter.1 hown
  exact ⟨hmem, of_decide_eq_true hid⟩

/-! ### The phase of an entry -/

/-- The phase of an entry at an instant. -/
def phaseOf (e : Entry Uuid String) (t : DateTime) : PairingPhase :=
  if e.revoked then .revoked
  else match e.stage with
    | .issued => if e.deadline ≤ t.timestamp then .expired else .pending
    | .closed => .failed
    | .staged _ => .consumed
    | .active _ => .ready

theorem ofTimestamp_le {s : Int} : (DateTime.ofTimestamp s).nanos ≤ t.nanos ↔ s ≤ t.timestamp := by
  simp only [DateTime.ofTimestamp, DateTime.timestamp]
  omega

theorem Unused.credentialState (h : Unused db p) : db.credentialState p = ⟨0, 0, 0, 0, 0⟩ := by
  simp [Db.credentialState, h.credentials]

theorem Bound.credentialState (h : Bound db p c) : db.credentialState p =
    ⟨1, if p.acknowledgedAt.isSome || p.revokedAt.isSome then 0 else 1,
      if p.acknowledgedAt.isSome && !p.revokedAt.isSome then 1 else 0,
      if !p.acknowledgedAt.isSome && p.revokedAt.isSome then 1 else 0,
      if p.acknowledgedAt.isSome && p.revokedAt.isSome then 1 else 0⟩ := by
  have hnode : (some c.nodeId = p.nodeId) := by rw [h.nodeId, h.owner]
  rw [← h.activated, ← h.revoked]
  simp only [Db.credentialState, h.credentials, List.length_singleton, List.filter_singleton, hnode, decide_true,
    cond_true, List.countP_cons, List.countP_nil]
  cases c.activatedAt <;> cases c.revokedAt <;> rfl

/-- A recorded pairing is classified, whatever the time. -/
theorem Recorded.phase (h : Recorded db p e) (t : DateTime) :
    ∃ failure, pairingPhase db p (.ofTimestamp p.expiresAt) t = .ok (phaseOf e t, failure) ∧
      (e.stage = .issued → failure = none) := by
  have hexpired := ofTimestamp_le (s := p.expiresAt) (t := t)
  cases h with
  | issued unused hf hcode =>
    refine ⟨none, ?_, fun _ => rfl⟩
    simp only [pairingPhase, pairingFailureState, hf, hcode, classifyPairingPhase, unused.credentialState, unused.usedAt,
      unused.acknowledgedAt, unused.nodeId, phaseOf, PairingRow.entry]
    by_cases hr : p.revokedAt.isSome = true <;> by_cases ht : p.expiresAt ≤ t.timestamp <;>
      simp [hr, ht, ensure, hexpired, ok_bind, pure, Except.pure]
  | @closed t₀ code unused hf hcode ht =>
    refine ⟨some (.ofTimestamp t₀, code), ?_, by rintro ⟨⟩⟩
    have hcalendar : timestamp t₀ = .ok (.ofTimestamp t₀) := timestamp_eq_ok.2 ⟨ht, rfl⟩
    simp only [pairingPhase, pairingFailureState, hf, hcode, hcalendar, classifyPairingPhase, unused.credentialState,
      unused.usedAt, unused.acknowledgedAt, unused.nodeId, phaseOf, PairingRow.entry]
    by_cases hr : p.revokedAt.isSome = true <;> simp [hr, ensure, ok_bind, pure, Except.pure, Except.mapError]
  | @staged c bound hack =>
    refine ⟨none, ?_, by rintro ⟨⟩⟩
    obtain ⟨used, hused⟩ := Option.ne_none_iff_exists'.1 bound.usedAt
    simp only [pairingPhase, pairingFailureState, bound.failedAt, bound.failureCode, classifyPairingPhase,
      bound.credentialState, hused, hack, bound.nodeId, bound.node, phaseOf, PairingRow.entry, Option.any_some]
    by_cases hr : p.revokedAt.isSome = true <;> simp [hr, ensure, ok_bind, pure, Except.pure]
  | @active c bound hack =>
    refine ⟨none, ?_, by rintro ⟨⟩⟩
    obtain ⟨used, hused⟩ := Option.ne_none_iff_exists'.1 bound.usedAt
    obtain ⟨acknowledged, hack⟩ := Option.ne_none_iff_exists'.1 hack
    simp only [pairingPhase, pairingFailureState, bound.failedAt, bound.failureCode, classifyPairingPhase,
      bound.credentialState, hused, hack, bound.nodeId, bound.node, phaseOf, PairingRow.entry, Option.any_some]
    by_cases hr : p.revokedAt.isSome = true <;> simp [hr, ensure, ok_bind, pure, Except.pure]

/-! ### Issue -/

theorem Records.issue {row : PairingRow} {pairings : Table PairingRow} (h : Records db R)
    (operations : Table PairingOperationRow) (hinsert : db.pairings.insert row = some pairings) (hused : row.usedAt = none)
    (hack : row.acknowledgedAt = none) (hrevoked : row.revokedAt = none) (hnode : row.nodeId = none)
    (hfailed : row.failedAt = none) (hcode : row.failureCode = none) :
    R row.id = none ∧ Records { db with pairings, pairingOperations := operations }
      (R.set row.id ⟨row.intendedNodeId, row.expiresAt, .issued, false⟩) := by
  obtain ⟨hnone, hlookup⟩ := Table.lookup_insert PairingRow.clash_of_id hinsert
  have habsent : R row.id = none := by
    have hrel := h.rows row.id
    rw [hnone] at hrel
    generalize R row.id = o at hrel ⊢
    cases hrel
    rfl
  refine ⟨habsent, fun id => ?_, fun c hc => ?_⟩
  · by_cases hid : id = row.id
    · subst hid
      rw [hlookup, Function.update_self, Entries.set_self]
      refine .some ?_
      -- a credential of the new pairing would be one of a stored pairing
      have hown : db.credentialsOf row.id = [] := by
        refine List.filter_eq_nil_iff.2 fun c hc hid => ?_
        obtain ⟨p, hp, hpid⟩ := h.owned c hc
        have := (Table.insert_eq_some hinsert).2 p hp
        rw [PairingRow.clash_of_id p row (hpid.trans (of_decide_eq_true hid))] at this
        cases this
      have hentry : row.entry .issued = ⟨row.intendedNodeId, row.expiresAt, .issued, false⟩ := by
        simp [PairingRow.entry, hrevoked]
      rw [← hentry]
      exact .issued ⟨hused, hack, hnode, hown⟩ hfailed hcode
    · rw [hlookup, Function.update_of_ne hid, Entries.set_of_ne hid]
      have hrel := h.rows id
      generalize db.pairings.lookup PairingRow.id id = o, R id = o' at hrel ⊢
      cases hrel with
      | none => exact .none
      | some hrec => exact .some (hrec.same rfl rfl)
  · obtain ⟨p, hp, hid⟩ := h.owned c hc
    exact ⟨p, (Table.mem_insert hinsert).2 (.inl hp), hid⟩

/-! ### Failure and revocation -/

/-- One entry is written, by rewriting its pairing. -/
theorem Records.write {q : PairingRow → Bool} (h : Records db R)
    (hp : p ∈ db.pairings.rows) (hpairings : db'.pairings.rows = db.pairings.rows.map (rewrite q f))
    (howned : ∀ c ∈ db'.workerCredentials.rows, ∃ p ∈ db.pairings.rows, p.id = c.pairingId)
    (hq : ∀ a, q a = true → a.id = p.id) (hqp : q p = true) (hf : ∀ a, (f a).id = a.id)
    (hothers : ∀ a, a.id ≠ p.id → ∀ e', Recorded db a e' → Recorded db' a e') (hrecorded : Recorded db' (f p) e) :
    Records db' (R.set p.id e) := by
  obtain ⟨e₀, he₀, -⟩ := h.entry hp
  rw [Entries.set_eq_map he₀]
  refine h.map (fun id e' => if id = p.id then e else e') hpairings ?_ howned ?_
  · intro a
    unfold rewrite
    split
    · exact hf a
    · rfl
  · intro a ha e' _ hrec
    by_cases hid : a.id = p.id
    · cases Table.eq_of_clash ha hp (PairingRow.clash_of_id a p hid)
      rw [rewrite_of_pos hqp, if_pos rfl]
      exact hrecorded
    · have hqa : q a = false := by
        by_contra hqa
        exact hid (hq a (by simpa using hqa))
      rw [rewrite_of_neg hqa, if_neg hid]
      exact hothers a hid e' hrec

theorem exists_of_countP {α : Type} {l : List α} {q : α → Bool} (h : l.countP q = 1) : ∃ a ∈ l, q a = true :=
  List.countP_pos_iff.1 (by omega)

theorem Recorded.of_pending {expiresAt : DateTime} {failure : Option (DateTime × PairingFailureCode)}
    (h : Recorded db p e) (hexpires : timestamp p.expiresAt = .ok expiresAt)
    (hphase : pairingPhase db p expiresAt t = .ok (.pending, failure)) :
    e = ⟨p.intendedNodeId, p.expiresAt, .issued, false⟩ ∧ Unused db p ∧ p.failedAt = none ∧ p.failureCode = none := by
  obtain ⟨-, rfl⟩ := timestamp_eq_ok.1 hexpires
  obtain ⟨_, hphase', -⟩ := h.phase t
  rw [hphase, Except.ok.injEq, Prod.mk.injEq] at hphase'
  have hpending := hphase'.1
  cases h with
  | issued unused hf hcode =>
    refine ⟨?_, unused, hf, hcode⟩
    unfold phaseOf PairingRow.entry at hpending
    unfold PairingRow.entry
    cases hr : p.revokedAt.isSome with
    | false => rfl
    | true => rw [hr] at hpending; cases hpending
  | _ =>
    unfold phaseOf PairingRow.entry at hpending
    simp only at hpending
    split at hpending <;> cases hpending

theorem failPairing_move {failureCode : PairingFailureCode} (h : Records db R)
    (hfail : failPairing env db pairingId failureCode = .ok db') :
    ∃ R', Records db' R' ∧ (R' = R ∨ Entries.Move env.now.timestamp R R') := by
  simp only [failPairing, bind_eq_ok, required_eq_ok, mapError_eq_ok, Prod.exists] at hfail
  obtain ⟨p, hfind, expiresAt, hexpires, phase, failure, hphase, hfail⟩ := hfail
  obtain ⟨hp, hid⟩ := Table.find_some hfind
  have hid : p.id = pairingId := of_decide_eq_true hid
  cases phase with
  | pending =>
    simp only [bind_eq_ok, pure_eq_ok, ensure_eq_ok, decide_eq_true_eq] at hfail
    obtain ⟨-, hcount, rfl⟩ := hfail
    obtain ⟨p', hp', hfails⟩ := exists_of_countP hcount
    have hkey : ∀ a : PairingRow, (decide (a.id = pairingId) && a.untouched && decide (env.now.timestamp < a.expiresAt) &&
        (db.credentialsOf a.id).isEmpty) = true → a.id = p.id := by
      intro a ha
      simp only [Bool.and_eq_true, decide_eq_true_eq] at ha
      rw [ha.1.1.1, hid]
    cases Table.eq_of_clash hp' hp (PairingRow.clash_of_id p' p (hkey p' hfails))
    obtain ⟨e, he, hrec⟩ := h.entry hp
    obtain ⟨rfl, unused, -, -⟩ := hrec.of_pending hexpires hphase
    have hlive : env.now.timestamp < p.expiresAt := by
      simp only [Bool.and_eq_true, decide_eq_true_eq] at hfails
      exact hfails.1.2
    have hrevoked : p.revokedAt = none := by
      have := congrArg Entry.revoked hrec.entry_eq
      simpa [PairingRow.entry] using this.symm
    refine ⟨_, ?_, .inr (.close he hlive)⟩
    refine h.write hp rfl h.owned hkey hfails (fun _ => rfl) (fun _ _ _ hrec => hrec.same rfl rfl) ?_
    have hentry : (⟨p.intendedNodeId, p.expiresAt, .closed, false⟩ : Entry Uuid String) =
        ({ p with failedAt := some env.now.timestamp, failureCode := some failureCode } : PairingRow).entry .closed := by
      simp [PairingRow.entry, hrevoked]
    rw [hentry]
    exact .closed ⟨unused.usedAt, unused.acknowledgedAt, unused.nodeId, unused.credentials⟩ rfl rfl env.onCalendar
  | failed =>
    simp only [bind_eq_ok, pure_eq_ok] at hfail
    obtain ⟨-, -, rfl⟩ := hfail
    exact ⟨R, h, .inl rfl⟩
  | _ => cases hfail

/-- A revocation revokes the pairing and its credential together. -/
theorem revokePairing_move (h : Records db R) (hrevoke : revokePairing env db pairingId = .ok db') :
    ∃ e, R pairingId = some e ∧ Records db' (R.set pairingId e.revoke) := by
  simp only [revokePairing, bind_eq_ok, pure_eq_ok, ensure_eq_ok, required_eq_ok] at hrevoke
  obtain ⟨-, hany, credentials, hupdate, hdb'⟩ := hrevoke
  obtain ⟨p₀, hp₀, hid₀⟩ := Table.any_eq_true.1 hany
  have hid₀ : p₀.id = pairingId := of_decide_eq_true hid₀
  subst hid₀
  obtain ⟨e₀, he₀, -⟩ := h.entry hp₀
  have hpairings : db'.pairings.rows = db.pairings.rows.map (rewrite (fun p => decide (p.id = p₀.id))
      fun p => { p with revokedAt := p.revokedAt.or (some env.now.timestamp) }) := by rw [← hdb']; rfl
  have hnodes : db'.nodes = db.nodes := by rw [← hdb']
  have hcredentials : db'.workerCredentials.rows = db.workerCredentials.rows.map (rewrite
      (fun c => decide (c.pairingId = p₀.id)) fun c => { c with revokedAt := c.revokedAt.or (some env.now.timestamp) }) := by
    rw [← hdb']
    exact Table.update_eq_some hupdate
  have hkeeps : ∀ c : WorkerCredentialRow, KeepsCredential c (rewrite (fun c => decide (c.pairingId = p₀.id))
      (fun c => { c with revokedAt := c.revokedAt.or (some env.now.timestamp) }) c) :=
    keepsCredential_rewrite fun _ => ⟨rfl, rfl, rfl⟩
  have hexists : ∀ id, db.nodeExists id = true → db'.nodeExists id = true := fun id hid => by
    rw [Db.nodeExists, hnodes]
    exact hid
  refine ⟨e₀, he₀, ?_⟩
  rw [Entries.set_eq_map he₀]
  refine h.map (fun id e => if id = p₀.id then e₀.revoke else e) hpairings ?_
    (h.owned_map hcredentials fun c => (hkeeps c).pairingId) ?_
  · intro a
    unfold rewrite
    split <;> rfl
  · intro a ha e he hrec
    have hown := credentialsOf_map hcredentials (fun c => (hkeeps c).pairingId) a.id
    by_cases hid : a.id = p₀.id
    · cases Table.eq_of_clash ha hp₀ (PairingRow.clash_of_id a p₀ hid)
      cases he.symm.trans he₀
      rw [rewrite_of_pos (by simp), if_pos rfl]
      have := hrec.revise (p₀.revokedAt.or (some env.now.timestamp)) hown (fun c hc => ⟨hkeeps c, ?_, ?_⟩) hexists
      · simpa [Entry.revoke] using this
      · unfold rewrite
        split <;> rfl
      · rw [rewrite_of_pos (by simp [hc.mem.2])]
        simp
    · rw [rewrite_of_neg (by simp [hid]), if_neg hid]
      refine hrec.keep hown (fun c hc => ⟨hkeeps c, ?_, ?_⟩) hexists
      all_goals rw [rewrite_of_neg (by simp [hc.mem.2, hid])]

/-! ### Consumption -/

/-- The hash of a new credential is the key of no entry. -/
theorem Records.fresh (h : Records db R) (hnone : (db.workerCredentials.any fun c => c.credentialHash = hash) = false) :
    R.Fresh hash := by
  intro id e he hkey
  obtain ⟨p, -, -, hrec⟩ := h.pairing he
  have absent : ∀ c, Bound db p c → c.credentialHash ≠ hash := fun c hc => by
    simpa using Table.any_eq_false.1 hnone c hc.mem.1
  cases hrec with
  | issued | closed => cases hkey
  | staged bound | active bound => exact absent _ bound (Option.some.inj hkey)

theorem credentialsOf_insert {credentials : Table WorkerCredentialRow} (h : db.workerCredentials.insert c = some credentials)
    (hdb' : db'.workerCredentials = credentials) (id : Uuid) :
    db'.credentialsOf id = db.credentialsOf id ++ if c.pairingId = id then [c] else [] := by
  unfold Db.credentialsOf
  rw [hdb', (Table.insert_eq_some h).1, List.filter_append]
  by_cases hid : c.pairingId = id <;> simp [hid]

/-- The first use of a pairing: its entry takes the hash as its key. -/
theorem consumeFresh_move (h : Records db R) (hp : p ∈ db.pairings.rows)
    (hused : p.usedAt = none) (hfailed : p.failedAt = none) (hcode : p.failureCode = none)
    (hrevoked : p.revokedAt = none) (hconsume : consumeFresh env db p hash node = .ok (db', paired)) :
    R p.id = some ⟨p.intendedNodeId, p.expiresAt, .issued, false⟩ ∧ env.now.timestamp < p.expiresAt ∧ R.Fresh hash ∧
      Records db' (R.set p.id ⟨p.intendedNodeId, p.expiresAt, .staged hash, false⟩) := by
  simp only [consumeFresh, bind_eq_ok, pair_eq_ok, ensure_eq_ok, decide_eq_true_eq, inserted_eq_ok] at hconsume
  obtain ⟨-, hunused, -, hfresh, -, hcount, db₁, hnode, credentials, hinsert, _, -, hdb', -⟩ := hconsume
  obtain ⟨henrollment, hcredentials, hnodes⟩ := upsertNodeTx_probed hnode (by rintro ⟨⟩)
  have hpairings := congrArg Prod.fst henrollment
  generalize hq : (fun r : PairingRow => decide (r.id = p.id) && decide (r.intendedNodeId = p.intendedNodeId) &&
    decide (r.codeHash = p.codeHash) && r.untouched && decide (env.now.timestamp < r.expiresAt) &&
    (db.credentialsOf r.id).isEmpty) = q at hpairings hcount
  obtain ⟨p', hp', hconsumes⟩ := exists_of_countP hcount
  have hkey : ∀ a, q a = true → a.id = p.id := by
    intro a ha
    simp only [← hq, Bool.and_eq_true, decide_eq_true_eq] at ha
    exact ha.1.1.1.1.1
  cases Table.eq_of_clash hp' hp (PairingRow.clash_of_id p' p (hkey p' hconsumes))
  have hlive : env.now.timestamp < p.expiresAt := by
    simp only [← hq, Bool.and_eq_true, decide_eq_true_eq] at hconsumes
    exact hconsumes.1.2
  obtain ⟨e, he, hrec⟩ := h.entry hp
  have hentry : e = ⟨p.intendedNodeId, p.expiresAt, .issued, false⟩ := by
    cases hrec with
    | issued => simp [PairingRow.entry, hrevoked]
    | closed _ hclosed => cases hclosed.symm.trans hfailed
    | staged bound | active bound => exact absurd hused bound.usedAt
  subst hentry
  have hfresh : (db.workerCredentials.any fun c => c.credentialHash = hash) = false := by simpa using hfresh
  refine ⟨he, hlive, h.fresh hfresh, ?_⟩
  simp only [Bool.and_eq_true, Option.isNone_iff_eq_none, List.isEmpty_iff] at hunused
  obtain ⟨⟨hack, -⟩, hown⟩ := hunused
  have hpairings' : db'.pairings.rows = db.pairings.rows.map (rewrite q fun r =>
      { r with usedAt := some env.now.timestamp, nodeId := some p.intendedNodeId }) := by
    rw [← hdb']
    exact congrArg Table.rows hpairings
  have hexists : ∀ id, db'.nodeExists id = (db.nodeExists id || id = p.intendedNodeId) := by
    rw [← hdb']
    exact hnodes
  have hcredentials' : db'.workerCredentials = credentials := by rw [← hdb']
  rw [show db₁.workerCredentials = db.workerCredentials from hcredentials] at hinsert
  have hcredentialsOf := credentialsOf_insert hinsert hcredentials'
  refine h.write hp hpairings' ?_ hkey hconsumes (fun _ => rfl) ?_ ?_
  · intro c hc
    rw [hcredentials', Table.mem_insert hinsert] at hc
    rcases hc with hc | rfl
    · exact h.owned c hc
    · exact ⟨p, hp, rfl⟩
  · intro a ha e' hrec
    refine hrec.keep (g := fun c => c) ?_ (fun c _ => ⟨.refl c, rfl, rfl⟩) fun id hid => by simp [hexists, hid]
    rw [hcredentialsOf, if_neg (Ne.symm ha), List.append_nil, List.map_id']
  · have hentry : (⟨p.intendedNodeId, p.expiresAt, .staged hash, false⟩ : Entry Uuid String) =
        ({ p with usedAt := some env.now.timestamp, nodeId := some p.intendedNodeId } : PairingRow).entry (.staged hash) := by
      simp [PairingRow.entry, hrevoked]
    rw [hentry]
    exact .staged (p := { p with usedAt := some env.now.timestamp, nodeId := some p.intendedNodeId })
      { usedAt := Option.some_ne_none _
        nodeId := rfl
        failedAt := hfailed
        failureCode := hcode
        node := (hexists p.intendedNodeId).trans (by simp)
        credentials := by rw [hcredentialsOf, hown, if_pos rfl, List.nil_append]
        owner := rfl
        revoked := by rw [hrevoked]
        activated := by rw [hack] } hack

theorem consumePairing_move {code : String} {intendedNodeId : Uuid}
    (h : Records db R) (hconsume : consumePairing env db code pairingId intendedNodeId hash node = .ok (db', paired)) :
    db' = db ∨ ∃ p d, R pairingId = some ⟨p, d, .issued, false⟩ ∧ env.now.timestamp < d ∧ R.Fresh hash ∧
      Records db' (R.set pairingId ⟨p, d, .staged hash, false⟩) := by
  simp only [consumePairing, bind_eq_ok, ensure_eq_ok, required_eq_ok] at hconsume
  obtain ⟨-, -, -, -, p, hfind, -, hbinding, hconsume⟩ := hconsume
  obtain ⟨hp, hopen⟩ := Table.find_some hfind
  simp only [Bool.and_eq_true, decide_eq_true_eq, Option.isNone_iff_eq_none] at hopen hbinding
  obtain ⟨⟨⟨⟨-, hrevoked⟩, -⟩, hfailed⟩, hcode⟩ := hopen
  obtain ⟨⟨rfl, -⟩, -⟩ := hbinding
  split at hconsume
  · simp only [bind_eq_ok, pair_eq_ok] at hconsume
    obtain ⟨_, -, rfl, -⟩ := hconsume
    exact .inl rfl
  · rename_i hused
    exact .inr ⟨_, _, consumeFresh_move h hp hused hfailed hcode hrevoked hconsume⟩

/-! ### Acknowledgement -/

/-- What an acknowledgement makes of the credentials and the pairings. -/
structure HandOver (db : Db) (now : Int) (pairingId nodeId : Uuid) (hash : String)
    (g : WorkerCredentialRow → WorkerCredentialRow) (f : PairingRow → PairingRow) : Prop where
  keeps : ∀ c, KeepsCredential c (g c)
  staged : ∃ c ∈ db.workerCredentials.rows, c.pairingId = pairingId ∧ c.nodeId = nodeId ∧ c.credentialHash = hash ∧
    c.activatedAt = none ∧ c.revokedAt = none ∧ g c = { c with activatedAt := some now, lastUsedAt := some now }
  retired : ∀ c, c.pairingId ≠ pairingId → c.nodeId = nodeId → g c = { c with revokedAt := c.revokedAt.or (some now) }
  others : ∀ c, c.pairingId ≠ pairingId → c.nodeId ≠ nodeId → g c = c
  pairing : ∀ a ∈ db.pairings.rows, a.id = pairingId → f a = { a with acknowledgedAt := some now }
  superseded : ∀ a, a.id ≠ pairingId → a.intendedNodeId = nodeId → f a = { a with revokedAt := a.revokedAt.or (some now) }
  unrelated : ∀ a, a.id ≠ pairingId → a.intendedNodeId ≠ nodeId → f a = a
  id : ∀ a, (f a).id = a.id

theorem activatePairing_eq_ok (h : activatePairing db now pairingId nodeId hash = .ok db') :
    ∃ g f, HandOver db now pairingId nodeId hash g f ∧ db'.nodes = db.nodes ∧
      db'.workerCredentials.rows = db.workerCredentials.rows.map g ∧ db'.pairings.rows = db.pairings.rows.map f := by
  simp only [activatePairing, bind_eq_ok, pure_eq_ok, ensure_eq_ok, decide_eq_true_eq, required_eq_ok] at h
  obtain ⟨credentials₁, hretire, -, hactivates, credentials₂, hactivate, -, hacknowledges, hdb'⟩ := h
  generalize hstaged : (fun c : WorkerCredentialRow => decide (c.pairingId = pairingId) && decide (c.nodeId = nodeId) &&
    decide (c.credentialHash = hash) && c.activatedAt.isNone && c.revokedAt.isNone && db.soleCredential c) = staged at *
  generalize (db.workerCredentials.any staged && _ && db.nodeExists nodeId) = current at *
  -- the credential that is activated shows that everything was current
  obtain ⟨c₁, hc₁, hactive⟩ := exists_of_countP hactivates
  rw [Bool.and_eq_true] at hactive
  obtain ⟨hstaged₁, rfl⟩ := hactive
  simp only [Bool.and_true, hstaged] at hretire hactivate
  have hstaged_iff : ∀ c, staged c = true ↔ c.pairingId = pairingId ∧ c.nodeId = nodeId ∧ c.credentialHash = hash ∧
      c.activatedAt = none ∧ c.revokedAt = none ∧ db.soleCredential c = true := by
    intro c
    simp only [← hstaged, Bool.and_eq_true, decide_eq_true_eq, Option.isNone_iff_eq_none, and_assoc]
  have hunstaged : ∀ c, c.pairingId ≠ pairingId → staged c = false := by
    intro c hc
    rw [← Bool.not_eq_true, hstaged_iff]
    exact fun h => hc h.1
  generalize hretires : (fun c : WorkerCredentialRow => decide (c.nodeId = nodeId) && decide (c.pairingId ≠ pairingId) &&
    c.revokedAt.isNone) = retires at hretire
  generalize hsupersedes : (fun p : PairingRow => decide (p.intendedNodeId = nodeId) && decide (p.id ≠ pairingId) &&
    p.revokedAt.isNone) = supersedes at hdb'
  obtain ⟨acks, hkey, ⟨a₀, ha₀, hack₀⟩, hpairings⟩ : ∃ acks : PairingRow → Bool, (∀ a, acks a = true → a.id = pairingId) ∧
      (∃ a ∈ db.pairings.rows, acks a = true) ∧ db'.pairings.rows = db.pairings.rows.map
        (rewrite supersedes (fun p => { p with revokedAt := some now }) ∘
          rewrite acks fun p => { p with acknowledgedAt := some now }) := by
    refine ⟨_, fun a ha => ?_, exists_of_countP hacknowledges, ?_⟩
    · simp only [Bool.and_eq_true, decide_eq_true_eq] at ha
      exact ha.1.1.1.1.1
    · rw [← hdb']
      exact List.map_map ..
  refine ⟨rewrite staged (fun c => { c with activatedAt := some now, lastUsedAt := some now }) ∘
      rewrite retires (fun c => { c with revokedAt := some now }),
    rewrite supersedes (fun p => { p with revokedAt := some now }) ∘
      rewrite acks (fun p => { p with acknowledgedAt := some now }), ?_, by rw [← hdb'], ?_, hpairings⟩
  · have unretired : ∀ c, c.pairingId = pairingId → retires c = false := fun c hc => by simp [← hretires, hc]
    have unsuperseded : ∀ a, a.id = pairingId → supersedes a = false := fun a ha => by simp [← hsupersedes, ha]
    have unacknowledged : ∀ a, a.id ≠ pairingId → acks a = false := fun a ha => by
      rw [← Bool.not_eq_true]
      exact fun h => ha (hkey a h)
    refine ⟨fun c => ?_, ?_, fun c hc hnode => ?_, fun c hc hnode => ?_, fun a ha hid => ?_, fun a hid hnode => ?_,
      fun a hid hnode => ?_, fun a => ?_⟩
    · simp only [Function.comp, rewrite]
      split <;> split <;> exact ⟨rfl, rfl, rfl⟩
    · obtain ⟨c₀, hc₀, hc₁⟩ := (Table.mem_update hretire).1 hc₁
      have hstaged₁ : staged c₁ = true := by rw [← hstaged]; exact hstaged₁
      have hid : c₀.pairingId = pairingId := by
        rw [← ((hstaged_iff c₁).1 hstaged₁).1, ← hc₁]
        unfold rewrite
        split <;> rfl
      rw [rewrite_of_neg (unretired c₀ hid)] at hc₁
      subst hc₁
      obtain ⟨-, hnode, hhash, hactivated, hrevoked, -⟩ := (hstaged_iff c₀).1 hstaged₁
      refine ⟨c₀, hc₀, hid, hnode, hhash, hactivated, hrevoked, ?_⟩
      rw [Function.comp, rewrite_of_neg (unretired c₀ hid), rewrite_of_pos hstaged₁]
    · have hretired : rewrite retires (fun c => { c with revokedAt := some now }) c =
          { c with revokedAt := c.revokedAt.or (some now) } := by
        cases hr : c.revokedAt with
        | none => rw [rewrite_of_pos (by simp [← hretires, hc, hnode, hr])]; rfl
        | some t => rw [rewrite_of_neg (by simp [← hretires, hr]), Option.some_or, ← hr]
      rw [Function.comp, hretired]
      exact rewrite_of_neg (hunstaged _ hc)
    · have hunretired : retires c = false := by simp [← hretires, hnode]
      rw [Function.comp, rewrite_of_neg hunretired]
      exact rewrite_of_neg (hunstaged c hc)
    · cases Table.eq_of_clash ha ha₀ (PairingRow.clash_of_id a a₀ (hid.trans (hkey a₀ hack₀).symm))
      rw [Function.comp, rewrite_of_pos hack₀]
      exact rewrite_of_neg (unsuperseded _ hid)
    · rw [Function.comp, rewrite_of_neg (unacknowledged a hid)]
      cases hr : a.revokedAt with
      | none => rw [rewrite_of_pos (by simp [← hsupersedes, hid, hnode, hr])]; rfl
      | some t => rw [rewrite_of_neg (by simp [← hsupersedes, hr]), Option.some_or, ← hr]
    · rw [Function.comp, rewrite_of_neg (unacknowledged a hid)]
      exact rewrite_of_neg (by simp [← hsupersedes, hnode])
    · simp only [Function.comp, rewrite]
      split <;> split <;> rfl
  · rw [← hdb']
    refine (Table.update_eq_some hactivate).trans ?_
    rw [Table.update_eq_some hretire, List.map_map]

/-- The first acknowledgement: the entry is confirmed, and every other one of its node is retired. -/
theorem activatePairing_move (h : Records db R) (hactivate : activatePairing db now pairingId nodeId hash = .ok db') :
    ∃ d, R pairingId = some ⟨nodeId, d, .staged hash, false⟩ ∧
      Records db' (R.confirm pairingId ⟨nodeId, d, .active hash, false⟩) := by
  obtain ⟨g, f, hover, hnodes, hcredentials, hpairings⟩ := activatePairing_eq_ok hactivate
  obtain ⟨c₀, hc₀, hid₀, hnode₀, rfl, hactivated₀, hrevoked₀, hg₀⟩ := hover.staged
  obtain ⟨p₀, hp₀, hpid₀, hbound₀, hentry₀⟩ := h.bound hc₀
  have hpid₀ : p₀.id = pairingId := hpid₀.trans hid₀
  have hnode₀ : p₀.intendedNodeId = nodeId := hbound₀.owner.symm.trans hnode₀
  have hunrevoked := hbound₀.unrevoked_iff.1 hrevoked₀
  have hunacknowledged := hbound₀.unactivated_iff.1 hactivated₀
  have hstaged : R pairingId = some ⟨nodeId, p₀.expiresAt, .staged c₀.credentialHash, false⟩ := by
    rcases hentry₀ with ⟨-, he⟩ | ⟨hne, -⟩
    · rw [← hpid₀, he, ← hnode₀]
      simp [PairingRow.entry, hunrevoked]
    · exact absurd hunacknowledged hne
  refine ⟨p₀.expiresAt, hstaged, ?_⟩
  have hexists : ∀ id, db.nodeExists id = true → db'.nodeExists id = true := fun id hid => by
    rw [Db.nodeExists, hnodes]
    exact hid
  have hown := credentialsOf_map hcredentials fun c => (hover.keeps c).pairingId
  rw [Entries.confirm_eq_map hstaged]
  refine h.map (fun id e => if id = pairingId then ⟨nodeId, p₀.expiresAt, .active c₀.credentialHash, false⟩
    else if e.principal = nodeId then e.revoke else e) hpairings hover.id
    (h.owned_map hcredentials fun c => (hover.keeps c).pairingId) ?_
  intro a ha e he hrec
  by_cases hid : a.id = pairingId
  · cases Table.eq_of_clash ha hp₀ (PairingRow.clash_of_id a p₀ (hid.trans hpid₀.symm))
    rw [if_pos hid, hover.pairing p₀ hp₀ hid]
    have hentry : (⟨nodeId, p₀.expiresAt, .active c₀.credentialHash, false⟩ : Entry Uuid String) =
        ({ p₀ with acknowledgedAt := some now } : PairingRow).entry (.active (g c₀).credentialHash) := by
      simp [PairingRow.entry, hunrevoked, hnode₀, hg₀]
    rw [hentry]
    exact .active (p := { p₀ with acknowledgedAt := some now })
      { usedAt := hbound₀.usedAt
        nodeId := hbound₀.nodeId
        failedAt := hbound₀.failedAt
        failureCode := hbound₀.failureCode
        node := hexists _ hbound₀.node
        credentials := by rw [hown, hbound₀.credentials]; rfl
        owner := (hover.keeps c₀).nodeId.trans hbound₀.owner
        revoked := by rw [hg₀]; exact hbound₀.revoked
        activated := by rw [hg₀] } (Option.some_ne_none now)
  · rw [if_neg hid]
    have hother : ∀ c, Bound db a c → c.pairingId ≠ pairingId := fun c hc => hc.mem.2.trans_ne hid
    have hprincipal : e.principal = a.intendedNodeId := congrArg Entry.principal hrec.entry_eq
    by_cases hnode : a.intendedNodeId = nodeId
    · rw [hover.superseded a hid hnode, if_pos (hprincipal.trans hnode)]
      have := hrec.revise (a.revokedAt.or (some now)) (hown a.id) (fun c hc => ?_) hexists
      · simpa [Entry.revoke] using this
      · rw [hover.retired c (hother c hc) (hc.owner.trans hnode)]
        exact ⟨⟨rfl, rfl, rfl⟩, rfl, by simp⟩
    · rw [hover.unrelated a hid hnode, if_neg (hprincipal.trans_ne hnode)]
      refine hrec.keep (hown a.id) (fun c hc => ?_) hexists
      rw [hover.others c (hother c hc) (hc.owner.trans_ne hnode)]
      exact ⟨.refl c, rfl, rfl⟩

theorem acknowledgePairing_move {credential : String} {acknowledgement : PairingAcknowledgement} (h : Records db R)
    (hacknowledge : acknowledgePairing env db credential pairingId nodeId hash = .ok (db', acknowledgement)) :
    (db' = db ∧ ∃ d, R pairingId = some ⟨nodeId, d, .active hash, false⟩) ∨
      ∃ d, R pairingId = some ⟨nodeId, d, .staged hash, false⟩ ∧
        Records db' (R.confirm pairingId ⟨nodeId, d, .active hash, false⟩) := by
  simp only [acknowledgePairing, bind_eq_ok, required_eq_ok] at hacknowledge
  obtain ⟨-, -, p, hfound, hacknowledge⟩ := hacknowledge
  split at hacknowledge
  · rename_i hack
    simp only [bind_eq_ok, pair_eq_ok] at hacknowledge
    obtain ⟨_, -, rfl, -⟩ := hacknowledge
    refine .inl ⟨rfl, ?_⟩
    simp only [acknowledgeable, Option.bind_eq_bind, Option.bind_eq_some_iff] at hfound
    obtain ⟨c, hfound, hpairing⟩ := hfound
    obtain ⟨hc, hcredential⟩ := Table.find_some hfound
    obtain ⟨hp, hbound⟩ := Table.find_some hpairing
    simp only [Bool.and_eq_true, decide_eq_true_eq, Option.isNone_iff_eq_none] at hcredential hbound
    obtain ⟨⟨⟨⟨⟨rfl, rfl⟩, rfl⟩, -⟩, -⟩, -⟩ := hcredential
    obtain ⟨⟨hid, hcolumns⟩, -⟩ := hbound
    simp only [PairingRow.bound, Bool.and_eq_true, decide_eq_true_eq, Option.isNone_iff_eq_none] at hcolumns
    obtain ⟨p₀, hp₀, hid₀, -, hentry⟩ := h.bound hc
    cases Table.eq_of_clash hp hp₀ (PairingRow.clash_of_id p p₀ (hid.trans hid₀.symm))
    rcases hentry with ⟨hnone, -⟩ | ⟨-, hentry⟩
    · cases hnone.symm.trans hack
    · refine ⟨p.expiresAt, ?_⟩
      rw [← hid, hentry]
      simp [PairingRow.entry, hcolumns.1.1.1.1.2, hcolumns.2]
  · simp only [bind_eq_ok, pair_eq_ok] at hacknowledge
    obtain ⟨db₁, hactivate, _, -, rfl, -⟩ := hacknowledge
    exact .inr (activatePairing_move h hactivate)

end CYC
