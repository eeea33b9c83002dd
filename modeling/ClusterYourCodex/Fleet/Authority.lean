import ClusterYourCodex.Fleet.Enrollment

/-! Who speaks for a node. Every call makes at most one move of the registry of enrollments, and a
credential is accepted for a node exactly when its hash is the key in force for it. What the registry
says of keys over a history, the store then says of credentials. -/

namespace CYC

open Checked Relational Registry

variable {env : Env} {db db' : Db} {R : Enrollments} {p : PairingRow} {c : WorkerCredentialRow} {node : Uuid}
  {credential : String}

/-! ### Issue -/

theorem createPairingFor_move {intendedNodeId : Option Uuid} {pairing : PairingSecret} (h : Records db R)
    (hcreate : createPairingFor env db intendedNodeId = .ok (db', pairing)) :
    ∃ id p d, R id = none ∧ Records db' (R.set id ⟨p, d, .issued, false⟩) := by
  simp only [createPairingFor, bind_eq_ok, pair_eq_ok, inserted_eq_ok] at hcreate
  obtain ⟨_, -, pairings, hinsert, rfl, -⟩ := hcreate
  exact ⟨_, _, _, h.issue db.pairingOperations hinsert rfl rfl rfl rfl rfl rfl⟩

variable {pairing : IdempotentPairing} {certificatePem operationKey workerUrl : String}
  {requestedNodeId : Option Uuid} {e : Entry Uuid String} {t : DateTime}

theorem issuePairing_move (h : Records db R)
    (hissue : issuePairing env db operationKey requestedNodeId workerUrl certificatePem = .ok (db', pairing)) :
    ∃ id p d, R id = none ∧ Records db' (R.set id ⟨p, d, .issued, false⟩) := by
  simp only [issuePairing, bind_eq_ok, pair_eq_ok, inserted_eq_ok] at hissue
  obtain ⟨_, -, pairings, hinsert, operations, -, rfl, -⟩ := hissue
  exact ⟨_, _, _, h.issue operations hinsert rfl rfl rfl rfl rfl rfl⟩

theorem createPairingIdempotent_move (h : Records db R)
    (hcreate : createPairingIdempotent env db operationKey requestedNodeId workerUrl certificatePem = .ok (db', pairing)) :
    db' = db ∨ ∃ id p d, R id = none ∧ Records db' (R.set id ⟨p, d, .issued, false⟩) := by
  rcases createPairingIdempotent_cases hcreate with hissue | ⟨rfl, -⟩
  · exact .inr (issuePairing_move h hissue)
  · exact .inl rfl

/-! ### Every call -/

/-- A call makes at most one move. -/
theorem exec_move {op : Op} {answer : Answer} (h : Records db R) (hexec : exec env db op = .ok (db', answer)) :
    ∃ R', Records db' R' ∧ (R' = R ∨ Entries.Move env.now.timestamp R R') := by
  have issued : (∃ id p d, R id = none ∧ Records db' (R.set id ⟨p, d, .issued, false⟩)) →
      ∃ R', Records db' R' ∧ (R' = R ∨ Entries.Move env.now.timestamp R R') := by
    rintro ⟨id, p, d, habsent, hrecords⟩
    exact ⟨_, hrecords, .inr (.issue habsent)⟩
  cases hop : op.enrolls with
  | false => exact ⟨R, h.spared (exec_spared hexec hop), .inl rfl⟩
  | true =>
    cases op <;> simp only [exec, answering_eq_ok, silently_eq_ok] at hexec
    case createPairingFor => obtain ⟨_, hexec, -⟩ := hexec; exact issued (createPairingFor_move h hexec)
    case createPairingIdempotent =>
      obtain ⟨_, hexec, -⟩ := hexec
      rcases createPairingIdempotent_move h hexec with rfl | hissued
      · exact ⟨R, h, .inl rfl⟩
      · exact issued hissued
    case consumePairing =>
      obtain ⟨_, hexec, -⟩ := hexec
      rcases consumePairing_move h hexec with rfl | ⟨p, d, hold, hlive, hfresh, hrecords⟩
      · exact ⟨R, h, .inl rfl⟩
      · exact ⟨_, hrecords, .inr (.take hold hlive hfresh)⟩
    case acknowledgePairing =>
      obtain ⟨_, hexec, -⟩ := hexec
      rcases acknowledgePairing_move h hexec with ⟨rfl, -⟩ | ⟨d, hold, hrecords⟩
      · exact ⟨R, h, .inl rfl⟩
      · exact ⟨_, hrecords, .inr (.confirm hold)⟩
    case failPairing => exact failPairing_move h hexec.1
    case revokePairing =>
      obtain ⟨e, hold, hrecords⟩ := revokePairing_move h hexec.1
      exact ⟨_, hrecords, .inr (.revoke hold)⟩
    all_goals cases hop

theorem step_move (call : Call) (h : Records db R) :
    ∃ R', Records (step db call) R' ∧ (R' = R ∨ Entries.Move call.env.now.timestamp R R') := by
  rcases step_cases db call with ⟨db', answer, hexec, hstep⟩ | hstep
  · rw [hstep]
    exact exec_move h hexec
  · rw [hstep]
    exact ⟨R, h, .inl rfl⟩

/-- Over a history the registry moves on. -/
theorem after_moves (calls : List Call) (h : Records db R) :
    ∃ R', Records (History.after step db calls) R' ∧ Entries.Moves R R' := by
  induction calls generalizing db R with
  | nil => exact ⟨R, h, .refl⟩
  | cons call calls ih =>
    obtain ⟨R₁, h₁, hmove⟩ := step_move call h
    obtain ⟨R₂, h₂, hmoves⟩ := ih h₁
    refine ⟨R₂, h₂, ?_⟩
    rcases hmove with rfl | hmove
    · exact hmoves
    · exact .head ⟨_, hmove⟩ hmoves

theorem wellKept_empty : Entries.WellKept (fun _ => none : Enrollments) := ⟨nofun, nofun⟩

/-- The store of every history records a registry that is well kept. -/
theorem records_storeAfter (seed : String) (calls : List Call) :
    ∃ R, Records (storeAfter seed calls) R ∧ R.WellKept := by
  obtain ⟨R, hrecords, hmoves⟩ := after_moves calls (records_empty seed)
  exact ⟨R, hrecords, Entries.wellKept_moves wellKept_empty hmoves⟩

/-! ### Authentication -/

theorem Records.authenticates_iff (h : Records db R) (hc : c ∈ db.workerCredentials.rows) :
    db.authenticates c = true ↔ ∃ d, R c.pairingId = some ⟨c.nodeId, d, .active c.credentialHash, false⟩ := by
  obtain ⟨p, hp, hid, hbound, hentry⟩ := h.bound hc
  rw [← hid]
  constructor
  · intro hauth
    simp only [Db.authenticates, WorkerCredentialRow.active, Bool.and_eq_true] at hauth
    obtain ⟨⟨⟨⟨hactivated, hunrevoked⟩, -⟩, -⟩, -⟩ := hauth
    rw [hbound.activated] at hactivated
    have hrevoked : p.revokedAt.isSome = false := by
      rw [← hbound.revoked]
      simpa using hunrevoked
    rcases hentry with ⟨hnone, -⟩ | ⟨-, hentry⟩
    · rw [hnone] at hactivated
      cases hactivated
    · exact ⟨p.expiresAt, by rw [hentry, PairingRow.entry, hrevoked, hbound.owner]⟩
  · rintro ⟨d, hforce⟩
    rcases hentry with ⟨-, hentry⟩ | ⟨hacknowledged, hentry⟩
    · cases congrArg Entry.stage (Option.some.inj (hentry.symm.trans hforce))
    · have hrevoked : p.revokedAt.isSome = false :=
        congrArg Entry.revoked (Option.some.inj (hentry.symm.trans hforce))
      have hunrevoked : p.revokedAt = none := by simpa using hrevoked
      have hacknowledged : p.acknowledgedAt.isSome = true := by rwa [Option.isSome_iff_ne_none]
      have hactive : c.active = true := by
        have hc : c.revokedAt = none := by simpa using hbound.revoked.trans hrevoked
        simp [WorkerCredentialRow.active, hbound.activated, hacknowledged, hc]
      have hany : (db.pairings.any fun p => p.id = c.pairingId && Db.acknowledgedFor p c.nodeId) = true := by
        refine Table.any_eq_true.2 ⟨p, hp, ?_⟩
        have hused : p.usedAt.isSome = true := Option.isSome_iff_ne_none.2 hbound.usedAt
        simp [Db.acknowledgedFor, hid, hused, hacknowledged, hunrevoked, hbound.failedAt, hbound.failureCode, hbound.nodeId,
          hbound.owner]
      simp only [Db.authenticates, hactive, hbound.owner, hbound.node, ← hid, hbound.credentials]
      simpa [hid, hbound.owner] using hany

/-- A credential is accepted exactly when its hash is the key in force. -/
theorem Records.accepts_iff (h : Records db R) (hR : R.WellKept) (now : Int) :
    (∃ db', authenticateWorkerTx db credential now = .ok (db', node)) ↔ R.InForce node (secretHash credential) := by
  simp only [authenticateWorkerTx, bind_eq_ok, pair_eq_ok, required_eq_ok]
  constructor
  · rintro ⟨_, c, hfind, -, rfl⟩
    obtain ⟨hc, hauth⟩ := Table.find_some hfind
    simp only [Bool.and_eq_true, decide_eq_true_eq] at hauth
    obtain ⟨d, hforce⟩ := (h.authenticates_iff hc).1 hauth.2
    exact ⟨c.pairingId, d, hauth.1 ▸ hforce⟩
  · rintro ⟨id, d, hforce⟩
    obtain ⟨p, hp, rfl, hrec⟩ := h.pairing hforce
    generalize he : (⟨node, d, .active (secretHash credential), false⟩ : Entry Uuid String) = e at hrec
    cases hrec with
    | active bound =>
      rename_i c₀ _
      obtain ⟨hc₀, hid₀⟩ := bound.mem
      have hhash : c₀.credentialHash = secretHash credential := (Stage.active.inj (congrArg Entry.stage he)).symm
      have howner : c₀.nodeId = node := bound.owner.trans (congrArg Entry.principal he).symm
      have hauth₀ : db.authenticates c₀ = true :=
        (h.authenticates_iff hc₀).2 ⟨d, by rw [hid₀, hforce, howner, hhash]⟩
      obtain ⟨c, hfind⟩ : ∃ c, (db.workerCredentials.find fun c => c.credentialHash = secretHash credential &&
          db.authenticates c) = some c := by
        cases hfind : db.workerCredentials.find fun c => c.credentialHash = secretHash credential && db.authenticates c with
        | some c => exact ⟨c, rfl⟩
        | none =>
          have := Table.find_none.1 hfind c₀ hc₀
          simp [hhash, hauth₀] at this
      -- no other entry holds the hash
      obtain ⟨hc, hauth⟩ := Table.find_some hfind
      simp only [Bool.and_eq_true, decide_eq_true_eq] at hauth
      obtain ⟨d', hforce'⟩ := (h.authenticates_iff hc).1 hauth.2
      have hsame := hR.distinct _ _ _ _ _ hforce hforce' rfl (congrArg some hauth.1)
      rw [hsame, hforce', Option.some.injEq] at hforce
      exact ⟨_, c, hfind, rfl, congrArg Entry.principal hforce⟩
    | _ => cases congrArg Entry.stage he

theorem Records.accepts (h : Records db R) (hR : R.WellKept) :
    db.Accepts credential node ↔ R.InForce node (secretHash credential) :=
  ⟨fun ⟨now, haccepted⟩ => (h.accepts_iff hR now).1 haccepted, fun hforce => ⟨0, (h.accepts_iff hR 0).2 hforce⟩⟩

/-! ### Phases -/

/-- The pairing is classified in the phase at the instant. -/
def Db.InPhase (db : Db) (p : PairingRow) (t : DateTime) (phase : PairingPhase) : Prop :=
  ∃ failure, pairingPhase db p (.ofTimestamp p.expiresAt) t = .ok (phase, failure)

theorem Recorded.inPhase_iff {phase : PairingPhase} (h : Recorded db p e) :
    db.InPhase p t phase ↔ phase = phaseOf e t := by
  obtain ⟨failure, hphase, -⟩ := h.phase t
  constructor
  · rintro ⟨_, hphase'⟩
    rw [hphase, Except.ok.injEq, Prod.mk.injEq] at hphase'
    exact hphase'.1.symm
  · rintro rfl
    exact ⟨failure, hphase⟩

theorem phaseOf_eq_ready : phaseOf e t = .ready ↔ ∃ k, e = ⟨e.principal, e.deadline, .active k, false⟩ := by
  obtain ⟨principal, deadline, stage, revoked⟩ := e
  cases revoked with
  | true =>
    refine ⟨nofun, ?_⟩
    rintro ⟨k, h⟩
    cases congrArg Entry.revoked h
  | false =>
    cases stage with
    | issued =>
      refine ⟨fun h => ?_, fun ⟨k, h⟩ => by cases congrArg Entry.stage h⟩
      unfold phaseOf at h
      simp only [Bool.false_eq_true, if_false] at h
      split at h <;> cases h
    | closed | staged k => exact ⟨nofun, fun ⟨k, h⟩ => by cases congrArg Entry.stage h⟩
    | active k => exact ⟨fun _ => ⟨k, rfl⟩, fun _ => rfl⟩

/-- A ready pairing is one whose entry is in force. -/
theorem Records.ready_iff (h : Records db R) (hp : p ∈ db.pairings.rows) (t : DateTime) :
    db.InPhase p t .ready ↔ ∃ d k, R p.id = some ⟨p.intendedNodeId, d, .active k, false⟩ := by
  obtain ⟨e, he, hrec⟩ := h.entry hp
  rw [hrec.inPhase_iff, eq_comm, phaseOf_eq_ready, he]
  have hprincipal : e.principal = p.intendedNodeId := congrArg Entry.principal hrec.entry_eq
  constructor
  · rintro ⟨k, hk⟩
    exact ⟨e.deadline, k, by rw [hk, ← hprincipal]⟩
  · rintro ⟨d, k, hk⟩
    cases hk
    exact ⟨k, rfl⟩

end CYC
