import ClusterYourCodex.Proofs.Gates

/-! Pairings that are issued under an operation key. The code is not stored: every repetition of the request derives it
again, from the seed, the operation and what the pairing was issued with. None of these ever changes, so what is issued
under a key is written once, and every answer repeats it. -/

namespace CYC

open Checked Relational

variable {env : Env} {db db' : Db} {key workerUrl certificatePem : String} {requestedNodeId : Option Uuid}
variable {x : PairingSecret × String × String} {p : PairingRow} {pairing : IdempotentPairing}

/-! ### What is issued under a key -/

/-- The pairing under the key, with its code, and the address and the certificate of the controller. -/
def Db.issuedUnder (db : Db) (key : String) : Option (PairingSecret × String × String) := do
  let o ← db.pairingOperations.find fun o => o.operationKey = key
  let p ← db.pairings.find fun p => p.id = o.pairingId
  return ({ id := p.id, intendedNodeId := p.intendedNodeId,
            code := derivePairingCode db.pairingSeed o.operationKey p.id p.intendedNodeId p.createdAt,
            createdAt := .ofTimestamp p.createdAt, expiresAt := .ofTimestamp p.expiresAt },
    o.workerUrl, o.certificatePem)

/-- What an answer hands out. -/
def IdempotentPairing.issued (pairing : IdempotentPairing) : PairingSecret × String × String :=
  (pairing.pairing, pairing.workerUrl, pairing.certificatePem)

theorem issuedUnder_eq_some : db.issuedUnder key = some x ↔
    ∃ o, (db.pairingOperations.find fun o => o.operationKey = key) = some o ∧
      ∃ p, (db.pairings.find fun p => p.id = o.pairingId) = some p ∧
        ({ id := p.id, intendedNodeId := p.intendedNodeId,
           code := derivePairingCode db.pairingSeed o.operationKey p.id p.intendedNodeId p.createdAt,
           createdAt := .ofTimestamp p.createdAt, expiresAt := .ofTimestamp p.expiresAt },
          o.workerUrl, o.certificatePem) = x := by
  simp only [Db.issuedUnder, Option.bind_eq_bind, Option.bind_eq_some_iff, Option.pure_def, Option.some.injEq]

theorem Revises.issuedUnder {now : Int} (h : Revises now db db') (hx : db.issuedUnder key = some x) :
    db'.issuedUnder key = some x := by
  obtain ⟨⟨f, hrows, hf⟩, hoperations, hseed, -⟩ := h
  obtain ⟨o, ho, p, hp, rfl⟩ := issuedUnder_eq_some.1 hx
  refine issuedUnder_eq_some.2 ⟨o, by rw [hoperations, ho], f p, ?_, ?_⟩
  · unfold Table.find
    have hcomp : ((fun p : PairingRow => decide (p.id = o.pairingId)) ∘ f) = fun p => decide (p.id = o.pairingId) := by
      funext a
      simp only [Function.comp, (hf a).id]
    rw [hrows, List.find?_map, hcomp, show db.pairings.rows.find? _ = some p from hp]
    rfl
  · rw [(hf p).id, (hf p).intendedNodeId, (hf p).createdAt, (hf p).expiresAt, hseed]

theorem Issues.issuedUnder (h : Issues db p db') (hx : db.issuedUnder key = some x) : db'.issuedUnder key = some x := by
  obtain ⟨o, ho, p₀, hp₀, rfl⟩ := issuedUnder_eq_some.1 hx
  refine issuedUnder_eq_some.2 ⟨o, ?_, p₀, ?_, by rw [h.seed]⟩
  · rcases h.operations with hsame | ⟨o₁, hinsert, -⟩
    · rw [hsame, ho]
    · rw [Table.find_insert hinsert, ho]
      rfl
  · rw [Table.find_insert h.pairings, hp₀]
    rfl

/-- What is issued under a key stays. -/
theorem issuedUnder_step (call : Call) (hx : db.issuedUnder key = some x) :
    (step db call).issuedUnder key = some x := by
  rcases step_cases db call with ⟨db', answer, hexec, hstep⟩ | hstep
  · rw [hstep]
    rcases exec_pairings hexec with hrevises | ⟨p, hissues, -⟩
    · exact hrevises.issuedUnder hx
    · exact hissues.issuedUnder hx
  · rw [hstep]
    exact hx

/-! ### Answers -/

theorem PairingOperationRow.clash_of_key (a b : PairingOperationRow) (h : a.operationKey = b.operationKey) :
    Schema.clash a b = true := by
  simp [Schema.clash, h]

theorem addSeconds_ofTimestamp (s k : Int) : (DateTime.ofTimestamp s).addSeconds k = .ofTimestamp (s + k) := by
  simp only [DateTime.ofTimestamp, DateTime.addSeconds, Int.add_mul]

/-- The row of a pairing that the code was just made for. -/
def issuedRow (env : Env) (pairing : PairingSecret) : PairingRow :=
  newPairing (env.newV4 .pairing) (secretHash pairing.code) env.now.timestamp (env.now.timestamp + pairingTtlSeconds)
    pairing.intendedNodeId

theorem issuePairing_eq_ok (h : issuePairing env db key requestedNodeId workerUrl certificatePem = .ok (db', pairing)) :
    db'.issuedUnder key = some pairing.issued ∧ db.pairings.insert (issuedRow env pairing.pairing) = some db'.pairings ∧
      db'.workerCredentials = db.workerCredentials := by
  simp only [issuePairing, bind_eq_ok, pair_eq_ok, inserted_eq_ok, timestamp_eq_ok] at h
  obtain ⟨_, ⟨-, rfl⟩, pairings, hpairings, operations, hoperations, rfl, rfl⟩ := h
  simp only [addSeconds_ofTimestamp, timestamp_ofTimestamp] at hpairings ⊢
  have hoperation := (congrFun (Table.lookup_insert PairingOperationRow.clash_of_key hoperations).2 key).trans
    (Function.update_self ..)
  have hpairing := (congrFun (Table.lookup_insert PairingRow.clash_of_id hpairings).2 (env.newV4 .pairing)).trans
    (Function.update_self ..)
  refine ⟨issuedUnder_eq_some.2 ⟨_, hoperation, _, hpairing, ?_⟩, hpairings, trivial⟩
  simp only [IdempotentPairing.issued, newPairing]

/-- Every answer hands out what is issued under its key. -/
theorem createPairingIdempotent_issued
    (h : createPairingIdempotent env db key requestedNodeId workerUrl certificatePem = .ok (db', pairing)) :
    db'.issuedUnder key = some pairing.issued := by
  rcases createPairingIdempotent_cases h with h | ⟨rfl, o, p, ho, hp, hreplay⟩
  · exact (issuePairing_eq_ok h).1
  · simp only [bind_eq_ok, pure_eq_ok, replayPairing, timestamp_eq_ok, Prod.exists] at hreplay
    obtain ⟨-, -, _, ⟨-, rfl⟩, _, ⟨-, rfl⟩, _, _, -, -, -, rfl⟩ := hreplay
    refine issuedUnder_eq_some.2 ⟨o, ho, p, hp, ?_⟩
    simp only [IdempotentPairing.issued, timestamp_ofTimestamp]

/-- The row of the pairing under a key. -/
theorem Enrolled.under (hd : Enrolled db) {o : PairingOperationRow} (ho : o ∈ db.pairingOperations.rows)
    (hp : p ∈ db.pairings.rows) (hid : p.id = o.pairingId) : p.DerivedBy db.pairingSeed o := by
  obtain ⟨p₀, hp₀, hderived⟩ := hd.derived o ho
  cases Table.eq_of_clash hp hp₀ (PairingRow.clash_of_id p p₀ (hid.trans hderived.1.symm))
  exact hderived

/-- A pending pairing is unspent. -/
theorem Records.pending {R : Enrollments} {t : DateTime} (h : Records db R) (hp : p ∈ db.pairings.rows)
    (hpending : db.InPhase p t .pending) : p.untouched = true ∧ t.timestamp < p.expiresAt := by
  obtain ⟨e, -, hrec⟩ := h.entry hp
  have hphase := (hrec.inPhase_iff.1 hpending).symm
  cases hrec with
  | issued unused hfailed hfailure =>
    unfold phaseOf PairingRow.entry at hphase
    cases hrevoked : p.revokedAt with
    | some r =>
      rw [hrevoked] at hphase
      cases hphase
    | none =>
      rw [hrevoked] at hphase
      simp only [Option.isSome_none, Bool.false_eq_true, if_false] at hphase
      split at hphase
      · cases hphase
      · rename_i hlive
        exact ⟨PairingRow.untouched_iff.2 ⟨unused.usedAt, unused.acknowledgedAt, hrevoked, hfailed, hfailure, unused.nodeId⟩,
          Int.not_le.1 hlive⟩
  | _ =>
    unfold phaseOf PairingRow.entry at hphase
    simp only at hphase
    split at hphase <;> cases hphase

/-- A repetition is answered while the pairing is pending, to the node that was asked for first. -/
theorem replayPairing_eq_ok {o : PairingOperationRow} (hd : Enrolled db) (hp : p ∈ db.pairings.rows) :
    replayPairing env db o p requestedNodeId = .ok pairing ↔
      o.requestedNodeId = requestedNodeId ∧ db.InPhase p env.now .pending ∧
        pairing = ⟨⟨p.id, p.intendedNodeId, derivePairingCode db.pairingSeed o.operationKey p.id p.intendedNodeId p.createdAt,
          .ofTimestamp p.createdAt, .ofTimestamp p.expiresAt⟩, o.workerUrl, o.certificatePem, true⟩ := by
  obtain ⟨hcreated, hexpires⟩ := hd.created p hp
  simp only [replayPairing, bind_eq_ok, ensure_eq_ok, pure_eq_ok, decide_eq_true_eq, timestamp_eq_ok, Prod.exists]
  constructor
  · rintro ⟨-, hrequested, _, ⟨-, rfl⟩, _, ⟨-, rfl⟩, phase, failure, hphase, -, hpending, rfl⟩
    rw [timestamp_ofTimestamp]
    exact ⟨hrequested, ⟨failure, by rw [← hpending]; exact hphase⟩, rfl⟩
  · rintro ⟨hrequested, ⟨failure, hphase⟩, rfl⟩
    refine ⟨(), hrequested, _, ⟨hcreated, rfl⟩, _, ⟨hexpires, rfl⟩, .pending, failure, hphase, (), rfl, ?_⟩
    rw [timestamp_ofTimestamp]

/-- The code of an answer opens the gate. -/
theorem createPairingIdempotent_opens {R : Enrollments} (h : Records db R) (hd : Enrolled db)
    (hcreate : createPairingIdempotent env db key requestedNodeId workerUrl certificatePem = .ok (db', pairing)) :
    preauthorizePairing env db' pairing.pairing.code = .ok () := by
  rcases createPairingIdempotent_cases hcreate with hissue | ⟨rfl, o, p, ho, hfind, hreplay⟩
  · obtain ⟨_, _, _, -, hrecords'⟩ := issuePairing_move h hissue
    obtain ⟨-, hinsert, -⟩ := issuePairing_eq_ok hissue
    refine (preauthorizePairing_iff hrecords').2 ⟨_, (Table.mem_insert hinsert).2 (.inr rfl), .inl ⟨rfl, rfl, ?_⟩⟩
    exact Int.lt_add_of_pos_right _ (by decide)
  · obtain ⟨hp, hid⟩ := Table.find_some hfind
    obtain ⟨ho, -⟩ := Table.find_some ho
    obtain ⟨-, hpending, rfl⟩ := (replayPairing_eq_ok hd hp).1 hreplay
    obtain ⟨huntouched, hlive⟩ := h.pending hp hpending
    exact (preauthorizePairing_iff h).2 ⟨p, hp, .inl ⟨(hd.under ho hp (of_decide_eq_true hid)).2, huntouched, hlive⟩⟩

/-! ### When a request is answered -/

/-- The arguments pass the checks that do not look at the store. -/
def ValidRequest (key workerUrl certificatePem : String) : Prop :=
  validPairingOperationKey key = true ∧ (workerUrl ≠ "" && Text.byteCount workerUrl ≤ 2048 && !Text.hasControl workerUrl &&
    certificatePem ≠ "" && Text.byteCount certificatePem ≤ 128 * 1024) = true

/-- The identifier that the call draws names no pairing, and the code that it derives is the code of none. -/
structure FreshPairing (env : Env) (db : Db) (key : String) (requestedNodeId : Option Uuid) : Prop where
  id : ∀ p ∈ db.pairings.rows, p.id ≠ env.newV4 .pairing
  code : ∀ p ∈ db.pairings.rows, p.codeHash ≠ secretHash (derivePairingCode db.pairingSeed key (env.newV4 .pairing)
    (requestedNodeId.getD (env.newV4 .pairingNode)) env.now.timestamp)

theorem issuePairing_isOk (workerUrl certificatePem : String) (hd : Enrolled db) (hfresh : FreshPairing env db key requestedNodeId)
    (hnew : ∀ o ∈ db.pairingOperations.rows, o.operationKey ≠ key) :
    ∃ result, issuePairing env db key requestedNodeId workerUrl certificatePem = .ok result := by
  obtain ⟨pairings, hpairings⟩ := Table.insert_isSome (t := db.pairings)
    (r := newPairing (env.newV4 .pairing) (secretHash (derivePairingCode db.pairingSeed key (env.newV4 .pairing)
      (requestedNodeId.getD (env.newV4 .pairingNode)) env.now.timestamp)) env.now.timestamp
      (env.now.timestamp + pairingTtlSeconds) (requestedNodeId.getD (env.newV4 .pairingNode))) fun p hp => by
    simp only [Schema.clash, Bool.or_eq_false_iff, decide_eq_false_iff_not]
    exact ⟨hfresh.id p hp, hfresh.code p hp⟩
  obtain ⟨operations, hoperations⟩ := Table.insert_isSome (t := db.pairingOperations)
    (r := ⟨key, env.newV4 .pairing, requestedNodeId, workerUrl, certificatePem⟩) fun o ho => by
    -- an operation with the new identifier would belong to a stored pairing
    obtain ⟨p, hp, hid, -⟩ := hd.derived o ho
    simp only [Schema.clash, Bool.or_eq_false_iff, decide_eq_false_iff_not]
    exact ⟨hnew o ho, hid ▸ hfresh.id p hp⟩
  have hnow : timestamp env.now.timestamp = .ok (.ofTimestamp env.now.timestamp) := timestamp_eq_ok.2 ⟨env.onCalendar, rfl⟩
  unfold issuePairing
  simp only [hnow, ok_bind, addSeconds_ofTimestamp, timestamp_ofTimestamp, inserted, hpairings, hoperations, required]
  exact ⟨_, rfl⟩

theorem createPairingIdempotent_isOk_iff (hd : Enrolled db) (hvalid : ValidRequest key workerUrl certificatePem)
    (hfresh : FreshPairing env db key requestedNodeId) :
    (∃ result, createPairingIdempotent env db key requestedNodeId workerUrl certificatePem = .ok result) ↔
      (∀ o ∈ db.pairingOperations.rows, o.operationKey ≠ key) ∨
        ∃ o ∈ db.pairingOperations.rows, o.operationKey = key ∧ o.requestedNodeId = requestedNodeId ∧
          ∃ p ∈ db.pairings.rows, p.id = o.pairingId ∧ db.InPhase p env.now .pending := by
  constructor
  · rintro ⟨⟨db', pairing⟩, hcreate⟩
    simp only [createPairingIdempotent, bind_eq_ok] at hcreate
    obtain ⟨-, -, -, -, hcreate⟩ := hcreate
    split at hcreate
    · rename_i hnone
      exact .inl fun o ho hkey => by simpa [hkey] using Table.find_none.1 hnone o ho
    · rename_i o hfind
      obtain ⟨ho, hkey⟩ := Table.find_some hfind
      obtain ⟨p₀, hp₀, hderived⟩ := hd.derived o ho
      split at hcreate
      · rename_i hnone
        exact absurd hderived.1 (by simpa using Table.find_none.1 hnone p₀ hp₀)
      · rename_i p hfind'
        obtain ⟨hp, hid⟩ := Table.find_some hfind'
        simp only [bind_eq_ok, pair_eq_ok] at hcreate
        obtain ⟨_, hreplay, -, -⟩ := hcreate
        obtain ⟨hrequested, hpending, -⟩ := (replayPairing_eq_ok hd hp).1 hreplay
        exact .inr ⟨o, ho, of_decide_eq_true hkey, hrequested, p, hp, of_decide_eq_true hid, hpending⟩
  · rintro (hnew | ⟨o, ho, hkey, hrequested, p, hp, hid, hpending⟩)
    · have hnone : (db.pairingOperations.find fun o => o.operationKey = key) = none :=
        List.find?_eq_none.2 fun o ho => by simpa using hnew o ho
      obtain ⟨result, hissue⟩ := issuePairing_isOk workerUrl certificatePem hd hfresh hnew
      simp only [createPairingIdempotent, hvalid.1, hvalid.2, hnone, ensure_true, ok_bind, hissue]
      exact ⟨_, rfl⟩
    · have hfind : (db.pairingOperations.find fun o => o.operationKey = key) = some o :=
        Table.find_of_mem (fun a b ha hb => PairingOperationRow.clash_of_key a b (by simp_all)) ho (decide_eq_true hkey)
      have hfind' : (db.pairings.find fun p => p.id = o.pairingId) = some p :=
        Table.find_of_mem (fun a b ha hb => PairingRow.clash_of_id a b (by simp_all)) hp (decide_eq_true hid)
      have hreplay := (replayPairing_eq_ok hd hp).2 ⟨hrequested, hpending, rfl⟩
      simp only [createPairingIdempotent, hvalid.1, hvalid.2, hfind, hfind', ensure_true, ok_bind, hreplay]
      exact ⟨_, rfl⟩

/-! ### The operation key along a history -/

/-- What the call hands out, if it is an answered request under the key. -/
def answerUnder (key : String) (db : Db) (call : Call) : Option (PairingSecret × String × String) :=
  match call.op, exec call.env db call.op with
  | .createPairingIdempotent key' _ _ _ _, .ok (_, .idempotentPairing pairing) => if key' = key then some pairing.issued else none
  | _, _ => none

theorem answerUnder_eq_some {call : Call} (h : answerUnder key db call = some x) :
    (step db call).issuedUnder key = some x := by
  obtain ⟨env, op⟩ := call
  unfold answerUnder at h
  split at h
  · rename_i key' request valid url pem db' pairing hop hexec
    split at h
    · rename_i hkey
      cases hkey
      cases h
      simp only at hop
      cases hop
      rw [step_eq hexec]
      obtain ⟨_, hcreate, hanswer⟩ := answering_eq_ok.1 hexec
      cases hanswer
      exact createPairingIdempotent_issued hcreate
    · cases h
  · cases h

/-- What the calls of a history hand out under the key, in order. -/
def answersUnder (key seed : String) (calls : List Call) : List (PairingSecret × String × String) :=
  History.emitted step (answerUnder key) (.empty seed) calls

theorem answersUnder_pairwise (key seed : String) (calls : List Call) : (answersUnder key seed calls).Pairwise (· = ·) := by
  refine (History.pairwise_emitted (I := fun _ => True) (B := fun x db => db.issuedUnder key = some x) (R := (· = ·))
    History.along_true trivial ?_ ?_).1
  · intro db call _ _
    exact ⟨trivial, fun x hx => issuedUnder_step call hx⟩
  · intro db call x _ _ hx
    have hafter := answerUnder_eq_some hx
    refine ⟨hafter, fun x₀ hx₀ => ?_⟩
    -- what was issued before is still there, so the answer repeats it
    exact Option.some.inj ((issuedUnder_step call hx₀).symm.trans hafter)

/-- The pairing was issued under the key. -/
def Db.PairedUnder (db : Db) (key : String) (p : PairingRow) : Prop :=
  ∃ o ∈ db.pairingOperations.rows, o.operationKey = key ∧ o.pairingId = p.id

theorem PairedUnder.unique {p₁ p₂ : PairingRow} (hp₁ : p₁ ∈ db.pairings.rows) (hp₂ : p₂ ∈ db.pairings.rows)
    (h₁ : db.PairedUnder key p₁) (h₂ : db.PairedUnder key p₂) : p₁ = p₂ := by
  obtain ⟨o₁, ho₁, hkey₁, hid₁⟩ := h₁
  obtain ⟨o₂, ho₂, hkey₂, hid₂⟩ := h₂
  cases Table.eq_of_clash ho₁ ho₂ (PairingOperationRow.clash_of_key o₁ o₂ (hkey₁.trans hkey₂.symm))
  exact Table.eq_of_clash hp₁ hp₂ (PairingRow.clash_of_id p₁ p₂ (hid₁.symm.trans hid₂))

/-- Requests under an operation key are idempotent. In every history the key has one pairing at most, all answers hand out
the same, and the code of an answer opens the gate at that time. A valid request is answered if the key is new, or if its
pairing is still pending and the node is the one that was asked for first. -/
theorem pairing_requests_idempotent (seed key : String) (calls : List Call) :
    (∀ p₁ ∈ (storeAfter seed calls).pairings.rows, ∀ p₂ ∈ (storeAfter seed calls).pairings.rows,
      (storeAfter seed calls).PairedUnder key p₁ → (storeAfter seed calls).PairedUnder key p₂ → p₁ = p₂) ∧
    (answersUnder key seed calls).Pairwise (· = ·) ∧
    ∀ (env : Env) (requestedNodeId : Option Uuid) (workerUrl certificatePem : String),
      (∀ db' pairing, createPairingIdempotent env (storeAfter seed calls) key requestedNodeId workerUrl certificatePem =
        .ok (db', pairing) → preauthorizePairing env db' pairing.pairing.code = .ok ()) ∧
      (ValidRequest key workerUrl certificatePem → FreshPairing env (storeAfter seed calls) key requestedNodeId →
        ((∃ result, createPairingIdempotent env (storeAfter seed calls) key requestedNodeId workerUrl certificatePem =
          .ok result) ↔
          (∀ o ∈ (storeAfter seed calls).pairingOperations.rows, o.operationKey ≠ key) ∨
            ∃ o ∈ (storeAfter seed calls).pairingOperations.rows, o.operationKey = key ∧
              o.requestedNodeId = requestedNodeId ∧ ∃ p ∈ (storeAfter seed calls).pairings.rows, p.id = o.pairingId ∧
                (storeAfter seed calls).InPhase p env.now .pending)) := by
  obtain ⟨R, hrecords, -⟩ := records_storeAfter seed calls
  have henrolled := enrolled_storeAfter seed calls
  refine ⟨fun p₁ hp₁ p₂ hp₂ => PairedUnder.unique hp₁ hp₂, answersUnder_pairwise key seed calls, ?_⟩
  intro env requestedNodeId workerUrl certificatePem
  constructor
  · intro db' pairing hcreate
    exact createPairingIdempotent_opens hrecords henrolled hcreate
  · intro hvalid hfresh
    exact createPairingIdempotent_isOk_iff henrolled hvalid hfresh

/-- A pairing is requested under a key. -/
def requestCalls : List Call := [⟨envAt 1000 10, .createPairingIdempotent "k" ⟨none⟩ validRequest_none "u" "c"⟩]

theorem requestCalls_checked :
    ((createPairingIdempotent (envAt 1000 11) (storeAfter "s" requestCalls) "k" none "u" "c").isOk &&
      (storeAfter "s" requestCalls).pairings.rows.all fun p => decide (p.id ≠ (envAt 1000 11).newV4 .pairing) &&
        decide (p.codeHash ≠ secretHash (derivePairingCode (storeAfter "s" requestCalls).pairingSeed "k"
          ((envAt 1000 11).newV4 .pairing) ((envAt 1000 11).newV4 .pairingNode) 1000))) = true := by
  decide +kernel

/-- The request is repeated while the pairing is pending. -/
theorem pairing_requests_idempotent_repeated :
    ∃ db' pairing, createPairingIdempotent (envAt 1000 11) (storeAfter "s" requestCalls) "k" none "u" "c" = .ok (db', pairing) ∧
      preauthorizePairing (envAt 1000 11) db' pairing.pairing.code = .ok () ∧
      ((∀ o ∈ (storeAfter "s" requestCalls).pairingOperations.rows, o.operationKey ≠ "k") ∨
        ∃ o ∈ (storeAfter "s" requestCalls).pairingOperations.rows, o.operationKey = "k" ∧ o.requestedNodeId = none ∧
          ∃ p ∈ (storeAfter "s" requestCalls).pairings.rows, p.id = o.pairingId ∧
            (storeAfter "s" requestCalls).InPhase p (envAt 1000 11).now .pending) := by
  obtain ⟨hok, hall⟩ := Bool.and_eq_true_iff.1 requestCalls_checked
  obtain ⟨⟨db', pairing⟩, hcreate⟩ := exists_ok_of_isOk hok
  have hfresh : ∀ p ∈ (storeAfter "s" requestCalls).pairings.rows, _ := fun p hp =>
    Bool.and_eq_true_iff.1 (List.all_eq_true.1 hall p hp)
  obtain ⟨-, -, hrequest⟩ := pairing_requests_idempotent "s" "k" requestCalls
  obtain ⟨hopens, hanswered⟩ := hrequest (envAt 1000 11) none "u" "c"
  exact ⟨db', pairing, hcreate, hopens db' pairing hcreate,
    (hanswered ⟨by decide, by decide⟩ ⟨fun p hp => of_decide_eq_true (hfresh p hp).1,
      fun p hp => of_decide_eq_true (hfresh p hp).2⟩).1 ⟨_, hcreate⟩⟩

end CYC
