import ClusterYourCodex.Proofs.Runs
import ClusterYourCodex.Fleet.Authority

/-! Enrollment over whole histories. The phase of a pairing is classified from its columns and its
credentials, and the operations that write these keep every pairing classifiable and move its phase
along the lifecycle only. A worker's credential is accepted exactly while the pairing that owns it is
ready, and a repair hands the node over in one step. -/

namespace CYC

open Checked Relational Registry

variable {db db' : Db} {R R' : Enrollments} {p : PairingRow} {t t' : DateTime}

/-! ### The lifecycle -/

/-- The moves of the lifecycle. -/
def PairingPhase.leadsTo : PairingPhase → PairingPhase → Bool
  | .pending, .consumed | .pending, .failed | .pending, .expired | .pending, .revoked => true
  | .consumed, .ready | .consumed, .revoked => true
  | .ready, .revoked | .failed, .revoked | .expired, .revoked => true
  | _, _ => false

theorem timestamp_mono (h : t.nanos ≤ t'.nanos) : t.timestamp ≤ t'.timestamp := by
  unfold DateTime.timestamp
  omega

variable {node nodeId pairingId : Uuid} {now : DateTime} {credential hash : String} {env : Env}

/-- Before its deadline an issued entry is pending. -/
theorem phaseOf_issued {d : Int} (h : t.timestamp < d) : phaseOf ⟨node, d, .issued, false⟩ t = .pending := by
  unfold phaseOf
  simp only [Bool.false_eq_true, if_false]
  exact if_neg (by omega)

/-- Revocation leads from every phase to the last one. -/
theorem phaseOf_revoke (e : Entry Uuid String) (t t' : DateTime) :
    phaseOf e.revoke t' = phaseOf e t ∨ (phaseOf e t).leadsTo (phaseOf e.revoke t') = true := by
  have hrevoked : phaseOf e.revoke t' = .revoked := rfl
  rw [hrevoked]
  cases hphase : phaseOf e t with
  | revoked => exact .inl rfl
  | _ => exact .inr rfl

/-- What one move makes of the phase of an entry, observed at `t` before it and at `t'` after it. -/
theorem phaseOf_next {e e' : Entry Uuid String} (h : e.Next now.timestamp e') (ht : t.nanos ≤ now.nanos)
    (htt' : t.nanos ≤ t'.nanos) : phaseOf e' t' = phaseOf e t ∨ (phaseOf e t).leadsTo (phaseOf e' t') = true := by
  have hnow := timestamp_mono ht
  have hlater := timestamp_mono htt'
  cases h with
  | close | take =>
    rw [phaseOf_issued (by omega)]
    exact .inr rfl
  | confirm => exact .inr rfl
  | revoke => exact phaseOf_revoke e t t'
  | same =>
    obtain ⟨principal, deadline, stage, revoked⟩ := e
    cases revoked with
    | true => exact .inl rfl
    | false =>
      cases stage with
      | issued =>
        -- time alone lets a pending pairing expire
        unfold phaseOf
        simp only [Bool.false_eq_true, if_false]
        by_cases hdue : deadline ≤ t.timestamp
        · rw [if_pos hdue, if_pos (by omega)]
          exact .inl rfl
        · rw [if_neg hdue]
          split
          · exact .inr rfl
          · exact .inl rfl
      | _ => exact .inl rfl

/-- Every pairing is still there, and its phase is the same or one move further. -/
def PhasesMoveOn (db : Db) (t : DateTime) (db' : Db) (t' : DateTime) : Prop :=
  ∀ p ∈ db.pairings.rows, ∃ p' ∈ db'.pairings.rows, p'.id = p.id ∧
    ∀ phase phase', db.InPhase p t phase → db'.InPhase p' t' phase' → phase' = phase ∨ phase.leadsTo phase' = true

theorem phasesMoveOn (h : Records db R) (h' : Records db' R')
    (hmove : R' = R ∨ Entries.Move now.timestamp R R') (ht : t.nanos ≤ now.nanos) (htt' : t.nanos ≤ t'.nanos) :
    PhasesMoveOn db t db' t' := by
  intro p hp
  obtain ⟨e, he, hrec⟩ := h.entry hp
  obtain ⟨e', he', hnext⟩ : ∃ e', R' p.id = some e' ∧ e.Next now.timestamp e' := by
    rcases hmove with rfl | hmove
    · exact ⟨e, he, .same⟩
    · exact hmove.next he
  obtain ⟨p', hp', hid, hrec'⟩ := h'.pairing he'
  refine ⟨p', hp', hid, fun phase phase' hphase hphase' => ?_⟩
  rw [hrec.inPhase_iff] at hphase
  rw [hrec'.inPhase_iff] at hphase'
  subst hphase hphase'
  exact phaseOf_next hnext ht htt'

/-- What the classification says of the rows of enrollment. -/
structure PairingsClassified (db : Db) : Prop where
  classified : ∀ p ∈ db.pairings.rows, ∀ t, ∃ phase, db.InPhase p t phase
  status : ∀ env id, getPairingStatus env db id ≠ .error .invalidPairingFailureState
  oneCredential : ∀ id, (db.credentialsOf id).length ≤ 1
  oneActive : ∀ c ∈ db.workerCredentials.rows, ∀ c' ∈ db.workerCredentials.rows, c.active = true → c'.active = true →
    c.nodeId = c'.nodeId → c = c'

theorem timestamp_ne_error (v : Int) : timestamp v ≠ .error .invalidPairingFailureState := by
  unfold timestamp
  split <;> exact nofun

theorem optionalTimestamp_ne_error (v : Option Int) : optionalTimestamp v ≠ .error .invalidPairingFailureState := by
  unfold optionalTimestamp
  split
  · exact nofun
  · intro h
    simp only [bind_eq_error] at h
    rcases h with h | ⟨_, -, h⟩
    · exact timestamp_ne_error _ h
    · cases h

/-- The status of a pairing that is recorded is not a failure of the classification. -/
theorem Records.status (h : Records db R) (env : Env) (id : Uuid) :
    getPairingStatus env db id ≠ .error .invalidPairingFailureState := by
  intro hstatus
  simp only [getPairingStatus, bind_eq_error, required_eq_ok, required_eq_error] at hstatus
  rcases hstatus with ⟨-, h⟩ | ⟨p, hfind, hstatus⟩
  · cases h
  rcases hstatus with h | ⟨_, -, h | ⟨expiresAt, hexpires, h | ⟨_, -, h | ⟨_, -, h | ⟨_, -, hphase | ⟨_, -, h⟩⟩⟩⟩⟩⟩
  · exact timestamp_ne_error _ h
  · exact timestamp_ne_error _ h
  · exact optionalTimestamp_ne_error _ h
  · exact optionalTimestamp_ne_error _ h
  · exact optionalTimestamp_ne_error _ h
  · obtain ⟨-, rfl⟩ := timestamp_eq_ok.1 hexpires
    obtain ⟨e, -, hrec⟩ := h.entry (Table.find_some hfind).1
    obtain ⟨_, hok, -⟩ := hrec.phase env.now
    cases hok.symm.trans hphase
  · cases h

theorem Records.oneCredential (h : Records db R) (id : Uuid) : (db.credentialsOf id).length ≤ 1 := by
  cases hown : db.credentialsOf id with
  | nil => exact Nat.zero_le 1
  | cons c cs =>
    have hmem : c ∈ db.credentialsOf id := by rw [hown]; exact List.mem_cons_self
    obtain ⟨hc, hid⟩ := List.mem_filter.1 hmem
    obtain ⟨p, -, hpid, hbound, -⟩ := h.bound hc
    rw [← hown, ← of_decide_eq_true hid, ← hpid, hbound.credentials]
    exact Nat.le_refl 1

/-- An active credential is the key in force of its node. -/
theorem Records.inForce_of_active {c : WorkerCredentialRow} (h : Records db R) (hc : c ∈ db.workerCredentials.rows)
    (hactive : c.active = true) : ∃ d, R c.pairingId = some ⟨c.nodeId, d, .active c.credentialHash, false⟩ := by
  obtain ⟨p, -, hid, hbound, hentry⟩ := h.bound hc
  simp only [WorkerCredentialRow.active, Bool.and_eq_true, Option.isNone_iff_eq_none] at hactive
  have hacknowledged := hbound.activated.symm.trans hactive.1
  have hrevoked : p.revokedAt.isSome = false := by rw [← hbound.revoked, hactive.2]; rfl
  rcases hentry with ⟨hnone, -⟩ | ⟨-, hentry⟩
  · rw [hnone] at hacknowledged
    cases hacknowledged
  · exact ⟨p.expiresAt, by rw [← hid, hentry, PairingRow.entry, hrevoked, hbound.owner]⟩

theorem Records.classified (h : Records db R) (hR : R.WellKept) : PairingsClassified db where
  classified p hp t := by
    obtain ⟨e, -, hrec⟩ := h.entry hp
    exact ⟨_, hrec.inPhase_iff.2 rfl⟩
  status := h.status
  oneCredential := h.oneCredential
  oneActive c hc c' hc' hactive hactive' hnode := by
    obtain ⟨d, hforce⟩ := h.inForce_of_active hc hactive
    obtain ⟨d', hforce'⟩ := h.inForce_of_active hc' hactive'
    rw [← hnode] at hforce'
    have hpairing := hR.single _ _ _ _ _ _ _ hforce hforce'
    obtain ⟨p, -, hid, hbound, -⟩ := h.bound hc
    have hmem' : c' ∈ db.credentialsOf p.id := List.mem_filter.2 ⟨hc', by simp [hid, hpairing]⟩
    rw [hbound.credentials, List.mem_singleton] at hmem'
    exact hmem'.symm

/-- Every pairing of a reachable store is classified, and its phase moves along the lifecycle: while
time passes, and over any next call that is made no earlier than the phase was observed. -/
theorem pairing_lifecycle (seed : String) (calls : List Call) : PairingsClassified (storeAfter seed calls) ∧
      (∀ t t' : DateTime, t.nanos ≤ t'.nanos → PhasesMoveOn (storeAfter seed calls) t (storeAfter seed calls) t') ∧
      ∀ (call : Call) (t t' : DateTime), t.nanos ≤ call.env.now.nanos → t.nanos ≤ t'.nanos →
        PhasesMoveOn (storeAfter seed calls) t (storeAfter seed (calls ++ [call])) t' := by
  obtain ⟨R, hrecords, hR⟩ := records_storeAfter seed calls
  refine ⟨hrecords.classified hR, fun t t' h => phasesMoveOn hrecords hrecords (.inl rfl) le_rfl h, ?_⟩
  intro call t t' ht htt'
  obtain ⟨R', hrecords', hmove⟩ := step_move call hrecords
  rw [storeAfter_append]
  exact phasesMoveOn hrecords hrecords' hmove ht htt'

/-- The acknowledgement of the sample pairing makes it ready. -/
theorem pairing_lifecycle_acknowledged : (storeAfter "s" (pairCalls 1000 10 ⟨1⟩ "a")).pairings.rows.length = 1 ∧
      PhasesMoveOn (storeAfter "s" (pairCalls 1000 10 ⟨1⟩ "a")) (.ofTimestamp 1000)
        (storeAfter "s" (enrollCalls 1000 10 ⟨1⟩ "a")) (.ofTimestamp 1001) :=
  ⟨by decide +kernel, (pairing_lifecycle "s" _).2.2 _ _ _ (by decide) (by decide)⟩

/-! ### Authority -/

/-- The node's one ready pairing owns a credential with the hash of this one. -/
def Db.ReadyOwner (db : Db) (t : DateTime) (credential : String) (node : Uuid) : Prop :=
  ∃ p ∈ db.pairings.rows, db.InPhase p t .ready ∧ p.nodeId = some node ∧
    (∀ p' ∈ db.pairings.rows, db.InPhase p' t .ready → p'.nodeId = some node → p' = p) ∧
    ∃ c ∈ db.credentialsOf p.id, c.credentialHash = secretHash credential

/-- A ready pairing names its node, and the entry of the pairing is the one in force for it. -/
theorem Records.ready (h : Records db R) (hp : p ∈ db.pairings.rows) (hready : db.InPhase p t .ready) :
    ∃ d c, Bound db p c ∧ R p.id = some ⟨p.intendedNodeId, d, .active c.credentialHash, false⟩ := by
  obtain ⟨d, k, hforce⟩ := (h.ready_iff hp t).1 hready
  obtain ⟨e, he, hrec⟩ := h.entry hp
  cases he.symm.trans hforce
  generalize he : (⟨p.intendedNodeId, d, .active k, false⟩ : Entry Uuid String) = e at hrec
  cases hrec with
  | active bound =>
    rename_i c _
    have hk : k = c.credentialHash := Stage.active.inj (congrArg Entry.stage he)
    exact ⟨d, c, bound, hk ▸ hforce⟩
  | _ => cases congrArg Entry.stage he

theorem Records.readyOwner_iff (h : Records db R) (hR : R.WellKept) (t : DateTime) :
    db.ReadyOwner t credential node ↔ R.InForce node (secretHash credential) := by
  constructor
  · rintro ⟨p, hp, hready, hnode, -, c', hc', hhash⟩
    obtain ⟨d, c, hbound, hforce⟩ := h.ready hp hready
    rw [hbound.credentials, List.mem_singleton] at hc'
    subst hc'
    cases hnode.symm.trans hbound.nodeId
    exact ⟨p.id, d, hhash ▸ hforce⟩
  · rintro ⟨id, d, hforce⟩
    obtain ⟨p, hp, rfl, hrec⟩ := h.pairing hforce
    have hintended : node = p.intendedNodeId := congrArg Entry.principal hrec.entry_eq
    subst hintended
    have hready := (h.ready_iff hp t).2 ⟨d, _, hforce⟩
    obtain ⟨d', c, hbound, hforce'⟩ := h.ready hp hready
    refine ⟨p, hp, hready, hbound.nodeId, fun p' hp' hready' hnode' => ?_, c, ?_, ?_⟩
    · -- two ready pairings of a node would both be in force
      obtain ⟨d'', c', hbound', hforce''⟩ := h.ready hp' hready'
      rw [← Option.some.inj (hnode'.symm.trans hbound'.nodeId)] at hforce''
      exact Table.eq_of_clash hp' hp (PairingRow.clash_of_id p' p (hR.single _ _ _ _ _ _ _ hforce'' hforce))
    · rw [hbound.credentials]
      exact List.mem_singleton_self c
    · have hstage := congrArg Entry.stage (Option.some.inj (hforce'.symm.trans hforce))
      exact Stage.active.inj hstage

/-- Who is accepted, in one state. -/
structure Authority (db : Db) : Prop where
  ready : ∀ (credential : String) (node : Uuid) (now : Int) (t : DateTime),
    (∃ db', authenticateWorkerTx db credential now = .ok (db', node)) ↔ db.ReadyOwner t credential node
  single : ∀ (credential credential' : String) (node : Uuid), db.Accepts credential node → db.Accepts credential' node →
    secretHash credential = secretHash credential'

theorem Records.authority (h : Records db R) (hR : R.WellKept) : Authority db where
  ready _ _ now t := (h.accepts_iff hR now).trans (h.readyOwner_iff hR t).symm
  single _ _ _ haccepted haccepted' := hR.inForce_unique ((h.accepts hR).1 haccepted) ((h.accepts hR).1 haccepted')

/-- What a call does to authority: a consumption nothing, an acknowledgement makes its credential the
only one accepted for its node and changes nothing for any other node. -/
structure HandsOver (db : Db) (call : Call) : Prop where
  consumed : ∀ {code pairingId nodeId hash displayName probe endpoint},
    call.op = .consumePairing code pairingId nodeId hash displayName probe endpoint →
      ∀ (credential : String) (node : Uuid), (step db call).Accepts credential node ↔ db.Accepts credential node
  acknowledged : ∀ {credential pairingId nodeId hash db' answer},
    call.op = .acknowledgePairing credential pairingId nodeId hash → exec call.env db call.op = .ok (db', answer) →
      ∀ (credential' : String) (node : Uuid), (step db call).Accepts credential' node ↔
        (node = nodeId ∧ secretHash credential' = hash) ∨ (node ≠ nodeId ∧ db.Accepts credential' node)
  failed : ∀ {e}, exec call.env db call.op = .error e → step db call = db

theorem consumePairing_accepts {code : String} {probe : Node} {paired : PairedWorker}
    (h : Records db R) (hR : R.WellKept) (hconsume : consumePairing env db code pairingId nodeId hash probe = .ok (db', paired))
    (credential : String) (node : Uuid) : db'.Accepts credential node ↔ db.Accepts credential node := by
  rcases consumePairing_move h hconsume with rfl | ⟨p, d, hold, hlive, hfresh, hrecords⟩
  · rfl
  · rw [hrecords.accepts (Entries.wellKept_move hR (.take hold hlive hfresh)), h.accepts hR]
    refine Entries.inForce_set (fun p' d' k' hforce => ?_) nofun
    cases hold.symm.trans hforce

theorem acknowledgePairing_accepts {acknowledgement : PairingAcknowledgement} (h : Records db R) (hR : R.WellKept)
    (hacknowledge : acknowledgePairing env db credential pairingId nodeId hash = .ok (db', acknowledgement))
    (credential' : String) (node : Uuid) : db'.Accepts credential' node ↔
      (node = nodeId ∧ secretHash credential' = hash) ∨ (node ≠ nodeId ∧ db.Accepts credential' node) := by
  rcases acknowledgePairing_move h hacknowledge with ⟨rfl, d, hactive⟩ | ⟨d, hold, hrecords⟩
  · -- a repeated acknowledgement finds its credential in force
    rw [h.accepts hR]
    have hforce : R.InForce nodeId hash := ⟨pairingId, d, hactive⟩
    by_cases hnode : node = nodeId
    · subst hnode
      simp only [true_and, ne_eq, not_true_eq_false, false_and, or_false]
      exact ⟨fun hforce' => hR.inForce_unique hforce' hforce, fun hhash => hhash ▸ hforce⟩
    · simp only [hnode, false_and, ne_eq, not_false_eq_true, true_and, false_or]
  · rw [hrecords.accepts (Entries.wellKept_move hR (.confirm hold : Entries.Move 0 R _)), h.accepts hR]
    exact Entries.inForce_confirm hold

theorem handsOver (h : Records db R) (hR : R.WellKept) (call : Call) : HandsOver db call where
  consumed := by
    intro code pairingId nodeId hash displayName probe endpoint hop credential node
    rcases step_cases db call with ⟨db', answer, hexec, hstep⟩ | hstep
    · rw [hop] at hexec
      simp only [exec, answering_eq_ok] at hexec
      obtain ⟨_, hconsume, -⟩ := hexec
      rw [hstep]
      exact consumePairing_accepts h hR hconsume credential node
    · rw [hstep]
  acknowledged := by
    intro credential pairingId nodeId hash db' answer hop hexec credential' node
    rw [step_eq hexec]
    rw [hop] at hexec
    simp only [exec, answering_eq_ok] at hexec
    obtain ⟨_, hacknowledge, -⟩ := hexec
    exact acknowledgePairing_accepts h hR hacknowledge credential' node
  failed := by
    intro e hexec
    simp [step, hexec]

/-- Credentials over whole histories: who is accepted is decided by the ready pairings, a credential
that has ceased to be accepted never is again, and a repair hands its node over in one call. -/
theorem credential_authority (seed : String) (calls mid rest : List Call) :
    Authority (storeAfter seed calls) ∧ (∀ call, HandsOver (storeAfter seed calls) call) ∧
      ∀ (credential : String) (node : Uuid), (storeAfter seed calls).Accepts credential node →
        ¬(storeAfter seed (calls ++ mid)).Accepts credential node →
          ∀ node', ¬(storeAfter seed (calls ++ mid ++ rest)).Accepts credential node' := by
  obtain ⟨R, hrecords, hR⟩ := records_storeAfter seed calls
  obtain ⟨R₁, hrecords₁, hmoves₁⟩ := after_moves mid hrecords
  obtain ⟨R₂, hrecords₂, hmoves₂⟩ := after_moves rest hrecords₁
  have hR₁ := Entries.wellKept_moves hR hmoves₁
  have hR₂ := Entries.wellKept_moves hR₁ hmoves₂
  refine ⟨hrecords.authority hR, handsOver hrecords hR, fun credential node haccepted hceased node' => ?_⟩
  rw [storeAfter_append, hrecords₁.accepts hR₁] at hceased
  rw [storeAfter_append, storeAfter_append, hrecords₂.accepts hR₂]
  exact Entries.not_inForce_again hR ((hrecords.accepts hR).1 haccepted) hmoves₁ hceased hmoves₂ node'

theorem accepts_of_answer (now : Int)
    (h : (authenticateWorkerTx db credential now).toOption.map Prod.snd = some node) : db.Accepts credential node := by
  cases hauth : authenticateWorkerTx db credential now with
  | error e => rw [hauth] at h; cases h
  | ok r =>
    rw [hauth] at h
    exact ⟨now, r.1, hauth.trans (by rw [← Option.some.inj h])⟩

/-- The worker of node 1 is enrolled with credential `a` and repaired with `b`. -/
theorem credential_authority_repair : (storeAfter "s" (enrollCalls 1000 10 ⟨1⟩ "a")).Accepts "a" ⟨1⟩ ∧
      (storeAfter "s" (enrollCalls 1000 10 ⟨1⟩ "a" ++ enrollCalls 1002 30 ⟨1⟩ "b")).Accepts "b" ⟨1⟩ ∧
      ¬(storeAfter "s" (enrollCalls 1000 10 ⟨1⟩ "a" ++ enrollCalls 1002 30 ⟨1⟩ "b")).Accepts "a" ⟨1⟩ := by
  have hb : (storeAfter "s" (enrollCalls 1000 10 ⟨1⟩ "a" ++ enrollCalls 1002 30 ⟨1⟩ "b")).Accepts "b" ⟨1⟩ :=
    accepts_of_answer 1002 (by decide +kernel)
  refine ⟨accepts_of_answer 1000 (by decide +kernel), hb, fun ha => ?_⟩
  have hhash := (credential_authority "s" _ [] []).1.single "a" "b" ⟨1⟩ ha hb
  exact absurd hhash (by decide +kernel)

end CYC
