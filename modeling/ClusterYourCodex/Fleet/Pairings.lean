import ClusterYourCodex.Fleet.Authority

/-! The rows of pairings over a history. A call revises them, or it issues one more. What a pairing was issued with never
changes, its later instants are readings of the clock, and the operation that it was issued under stays with it. -/

namespace CYC

open Checked Relational

variable {env : Env} {db db' db'' : Db} {now : Int} {p p' p'' : PairingRow}

/-! ### Revision -/

/-- A later row of a pairing. -/
structure PairingRow.Revised (now : Int) (p p' : PairingRow) : Prop where
  id : p'.id = p.id
  codeHash : p'.codeHash = p.codeHash
  createdAt : p'.createdAt = p.createdAt
  expiresAt : p'.expiresAt = p.expiresAt
  intendedNodeId : p'.intendedNodeId = p.intendedNodeId
  usedAt : p'.usedAt = p.usedAt ∨ p'.usedAt = some now
  acknowledgedAt : p'.acknowledgedAt = p.acknowledgedAt ∨ p'.acknowledgedAt = some now

theorem PairingRow.Revised.refl (now : Int) (p : PairingRow) : p.Revised now p := ⟨rfl, rfl, rfl, rfl, rfl, .inl rfl, .inl rfl⟩

theorem PairingRow.Revised.trans (h : p.Revised now p') (h' : p'.Revised now p'') : p.Revised now p'' where
  id := h'.id.trans h.id
  codeHash := h'.codeHash.trans h.codeHash
  createdAt := h'.createdAt.trans h.createdAt
  expiresAt := h'.expiresAt.trans h.expiresAt
  intendedNodeId := h'.intendedNodeId.trans h.intendedNodeId
  usedAt := by
    rcases h'.usedAt with hsame | hnow
    · rw [hsame]
      exact h.usedAt
    · exact .inr hnow
  acknowledgedAt := by
    rcases h'.acknowledgedAt with hsame | hnow
    · rw [hsame]
      exact h.acknowledgedAt
    · exact .inr hnow

theorem PairingRow.Revised.rewrite {q : PairingRow → Bool} {f : PairingRow → PairingRow} (hf : ∀ p : PairingRow, p.Revised now (f p))
    (p : PairingRow) : p.Revised now (rewrite q f p) := by
  unfold Relational.rewrite
  split
  · exact hf p
  · exact .refl now p

/-- The pairings are those that there were, in later rows, and a credential is one that there was or a new one. -/
structure Revises (now : Int) (db db' : Db) : Prop where
  pairings : ∃ f : PairingRow → PairingRow, db'.pairings.rows = db.pairings.rows.map f ∧
    ∀ p : PairingRow, p.Revised now (f p)
  operations : db'.pairingOperations = db.pairingOperations
  seed : db'.pairingSeed = db.pairingSeed
  credentials : ∀ c ∈ db'.workerCredentials.rows, validSha256 c.credentialHash = true ∨
    ∃ c₀ ∈ db.workerCredentials.rows, c₀.credentialHash = c.credentialHash

theorem Revises.trans (h : Revises now db db') (h' : Revises now db' db'') : Revises now db db'' := by
  obtain ⟨⟨f, hrows, hf⟩, hoperations, hseed, hcredentials⟩ := h
  obtain ⟨⟨f', hrows', hf'⟩, hoperations', hseed', hcredentials'⟩ := h'
  refine ⟨⟨f' ∘ f, by rw [hrows', hrows, List.map_map], fun p => (hf p).trans (hf' (f p))⟩,
    hoperations'.trans hoperations, hseed'.trans hseed, ?_⟩
  intro c hc
  rcases hcredentials' c hc with hvalid | ⟨c₁, hc₁, hhash₁⟩
  · exact .inl hvalid
  · rcases hcredentials c₁ hc₁ with hvalid | ⟨c₀, hc₀, hhash₀⟩
    · exact .inl (hhash₁ ▸ hvalid)
    · exact .inr ⟨c₀, hc₀, hhash₀.trans hhash₁⟩

theorem Revises.of_spared (h : Spared db db') : Revises now db db' := by
  obtain ⟨henrollment, ⟨time, hcredentials⟩, -⟩ := h
  have hrows : db'.pairings.rows = db.pairings.rows := congrArg (fun e => e.1.rows) henrollment
  refine ⟨⟨id, by rw [hrows, List.map_id], .refl now⟩, congrArg (fun e => e.2.1) henrollment,
    congrArg (fun e => e.2.2) henrollment, fun c hc => ?_⟩
  rw [hcredentials] at hc
  obtain ⟨c₀, hc₀, rfl⟩ := List.mem_map.1 hc
  exact .inr ⟨c₀, hc₀, rfl⟩

theorem Revises.refl (now : Int) (db : Db) : Revises now db db := .of_spared (.of_touched (.of_fleet rfl))

theorem revises_failPairing {pairingId : Uuid} {failureCode : PairingFailureCode}
    (h : failPairing env db pairingId failureCode = .ok db') : Revises now db db' := by
  simp only [failPairing, bind_eq_ok, Prod.exists] at h
  obtain ⟨_, -, _, -, phase, _, -, h⟩ := h
  split at h
  · simp only [bind_eq_ok, pure_eq_ok] at h
    obtain ⟨-, -, rfl⟩ := h
    exact ⟨⟨_, rfl, .rewrite fun p => ⟨rfl, rfl, rfl, rfl, rfl, .inl rfl, .inl rfl⟩⟩, rfl, rfl, fun c hc => .inr ⟨c, hc, rfl⟩⟩
  · simp only [bind_eq_ok, pure_eq_ok] at h
    obtain ⟨-, -, rfl⟩ := h
    exact .refl _ _
  · cases h

theorem hash_of_update {credentials credentials' : Table WorkerCredentialRow} {q : WorkerCredentialRow → Bool}
    {f : WorkerCredentialRow → WorkerCredentialRow} (h : credentials.update q f = some credentials')
    (hf : ∀ c, (f c).credentialHash = c.credentialHash) {c : WorkerCredentialRow} (hc : c ∈ credentials'.rows) :
    ∃ c₀ ∈ credentials.rows, c₀.credentialHash = c.credentialHash := by
  obtain ⟨c₀, hc₀, rfl⟩ := (Table.mem_update h).1 hc
  refine ⟨c₀, hc₀, ?_⟩
  unfold rewrite
  split
  · exact (hf c₀).symm
  · rfl

theorem revises_revokePairing {pairingId : Uuid} (h : revokePairing env db pairingId = .ok db') : Revises now db db' := by
  simp only [revokePairing, bind_eq_ok, pure_eq_ok, required_eq_ok] at h
  obtain ⟨-, -, credentials, hupdate, rfl⟩ := h
  exact ⟨⟨_, rfl, .rewrite fun p => ⟨rfl, rfl, rfl, rfl, rfl, .inl rfl, .inl rfl⟩⟩, rfl, rfl,
    fun c hc => .inr (hash_of_update hupdate (fun _ => rfl) hc)⟩

theorem revises_consumePairing {code hash : String} {pairingId nodeId : Uuid} {node : Node} {paired : PairedWorker}
    (h : consumePairing env db code pairingId nodeId hash node = .ok (db', paired)) : Revises env.now.timestamp db db' := by
  simp only [consumePairing, bind_eq_ok, ensure_eq_ok] at h
  obtain ⟨-, -, -, hvalid, p, -, -, -, h⟩ := h
  split at h
  · simp only [bind_eq_ok, pair_eq_ok] at h
    obtain ⟨_, -, rfl, -⟩ := h
    exact .refl _ _
  · simp only [consumeFresh, bind_eq_ok, pair_eq_ok, inserted_eq_ok] at h
    obtain ⟨-, -, -, -, -, -, db₁, hnode, credentials, hinsert, _, -, rfl, -⟩ := h
    refine Revises.trans ?_ (Revises.trans (.of_spared (upsertNodeTx_probed hnode (by rintro ⟨⟩)).spared) ?_)
    · exact ⟨⟨_, rfl, .rewrite fun p => ⟨rfl, rfl, rfl, rfl, rfl, .inr rfl, .inl rfl⟩⟩, rfl, rfl,
        fun c hc => .inr ⟨c, hc, rfl⟩⟩
    · refine ⟨⟨id, (List.map_id _).symm, .refl _⟩, rfl, rfl, fun c hc => ?_⟩
      rcases (Table.mem_insert hinsert).1 hc with hc | rfl
      · exact .inr ⟨c, hc, rfl⟩
      · exact .inl hvalid

theorem revises_acknowledgePairing {credential hash : String} {pairingId nodeId : Uuid}
    {acknowledgement : PairingAcknowledgement}
    (h : acknowledgePairing env db credential pairingId nodeId hash = .ok (db', acknowledgement)) :
    Revises env.now.timestamp db db' := by
  simp only [acknowledgePairing, bind_eq_ok] at h
  obtain ⟨-, -, p, -, h⟩ := h
  split at h
  · simp only [bind_eq_ok, pair_eq_ok] at h
    obtain ⟨_, -, rfl, -⟩ := h
    exact .refl _ _
  · simp only [activatePairing, bind_eq_ok, pure_eq_ok, required_eq_ok] at h
    obtain ⟨_, ⟨credentials, hretire, -, -, credentials', hactivate, -, -, rfl⟩, _, -, rfl, -⟩ := h
    refine ⟨⟨_ ∘ _, List.map_map .., fun p => ?_⟩, rfl, rfl, fun c hc => .inr ?_⟩
    · refine PairingRow.Revised.trans (.rewrite (fun p => ?_) p) (.rewrite (fun p => ?_) _)
      · exact ⟨rfl, rfl, rfl, rfl, rfl, .inl rfl, .inr rfl⟩
      · exact ⟨rfl, rfl, rfl, rfl, rfl, .inl rfl, .inl rfl⟩
    · obtain ⟨c₁, hc₁, hhash₁⟩ := hash_of_update hactivate (fun _ => rfl) hc
      obtain ⟨c₀, hc₀, hhash₀⟩ := hash_of_update hretire (fun _ => rfl) hc₁
      exact ⟨c₀, hc₀, hhash₀.trans hhash₁⟩

/-! ### Issue -/

/-- The code of a pairing that was issued under an operation is derived from the operation and the row. -/
def PairingRow.DerivedBy (seed : String) (p : PairingRow) (o : PairingOperationRow) : Prop :=
  p.id = o.pairingId ∧ p.codeHash = secretHash (derivePairingCode seed o.operationKey p.id p.intendedNodeId p.createdAt)

/-- One pairing is issued, under an operation or none. -/
structure Issues (db : Db) (p : PairingRow) (db' : Db) : Prop where
  pairings : db.pairings.insert p = some db'.pairings
  createdAt : OnCalendar p.createdAt
  expiresAt : OnCalendar p.expiresAt
  usedAt : p.usedAt = none
  acknowledgedAt : p.acknowledgedAt = none
  operations : db'.pairingOperations = db.pairingOperations ∨
    ∃ o, db.pairingOperations.insert o = some db'.pairingOperations ∧ p.DerivedBy db.pairingSeed o
  seed : db'.pairingSeed = db.pairingSeed
  credentials : db'.workerCredentials = db.workerCredentials

theorem onCalendar_pairingDeadline (env : Env) :
    OnCalendar ((DateTime.ofTimestamp env.now.timestamp).addSeconds pairingTtlSeconds).timestamp := by
  have hclock := env.now_onClock
  simp only [DateTime.OnClock, OnCalendar, DateTime.Representable, DateTime.ofTimestamp, DateTime.addSeconds,
    DateTime.timestamp, pairingTtlSeconds] at *
  omega

theorem timestamp_ofTimestamp (s : Int) : (DateTime.ofTimestamp s).timestamp = s := by
  simp only [DateTime.ofTimestamp, DateTime.timestamp]
  omega

theorem issues_createPairingFor {intendedNodeId : Option Uuid} {pairing : PairingSecret}
    (h : createPairingFor env db intendedNodeId = .ok (db', pairing)) :
    ∃ p, Issues db p db' ∧ p.intendedNodeId = intendedNodeId.getD (env.newV4 .pairingNode) := by
  simp only [createPairingFor, bind_eq_ok, pair_eq_ok, inserted_eq_ok, timestamp_eq_ok] at h
  obtain ⟨_, ⟨hnow, rfl⟩, pairings, hinsert, rfl, -⟩ := h
  refine ⟨_, ⟨hinsert, ?_, onCalendar_pairingDeadline env, rfl, rfl, .inl rfl, rfl, rfl⟩, rfl⟩
  show OnCalendar (DateTime.ofTimestamp env.now.timestamp).timestamp
  rw [timestamp_ofTimestamp]
  exact hnow

theorem issues_issuePairing {operationKey workerUrl certificatePem : String} {requestedNodeId : Option Uuid}
    {pairing : IdempotentPairing}
    (h : issuePairing env db operationKey requestedNodeId workerUrl certificatePem = .ok (db', pairing)) :
    ∃ p, Issues db p db' ∧ p.intendedNodeId = requestedNodeId.getD (env.newV4 .pairingNode) := by
  simp only [issuePairing, bind_eq_ok, pair_eq_ok, inserted_eq_ok, timestamp_eq_ok] at h
  obtain ⟨_, ⟨hnow, rfl⟩, pairings, hinsert, operations, hoperations, rfl, -⟩ := h
  refine ⟨_, ⟨hinsert, ?_, onCalendar_pairingDeadline env, rfl, rfl, .inr ⟨_, hoperations, rfl, rfl⟩, rfl, rfl⟩, rfl⟩
  show OnCalendar (DateTime.ofTimestamp env.now.timestamp).timestamp
  rw [timestamp_ofTimestamp]
  exact hnow

/-- A valid request asks for no nil node. -/
theorem intended_not_nil {request : CreatePairingRequest} (hvalid : request.validate = .ok ()) {drawn node : Uuid}
    (hnode : node = request.intendedNodeId.getD drawn) (hdrawn : drawn.isNil = false) : node.isNil = false := by
  rw [CreatePairingRequest.validate, ensure_eq_ok, Bool.not_eq_true'] at hvalid
  rw [hnode]
  cases hrequest : request.intendedNodeId with
  | none => exact hdrawn
  | some asked =>
    rw [hrequest] at hvalid
    exact hvalid

/-- A call revises the pairings, or issues one for a node that is not nil. -/
theorem exec_pairings {op : Op} {answer : Answer} (h : exec env db op = .ok (db', answer)) :
    Revises env.now.timestamp db db' ∨
      ∃ p, Issues db p db' ∧ ((env.newV4 .pairingNode).isNil = false → p.intendedNodeId.isNil = false) := by
  cases hop : op.enrolls with
  | false => exact .inl (.of_spared (exec_spared h hop))
  | true =>
    cases op <;> simp only [exec, answering_eq_ok, silently_eq_ok] at h
    case createPairingFor request valid =>
      obtain ⟨_, h, -⟩ := h
      obtain ⟨p, hissues, hnode⟩ := issues_createPairingFor h
      exact .inr ⟨p, hissues, intended_not_nil valid hnode⟩
    case createPairingIdempotent key request valid workerUrl certificatePem =>
      obtain ⟨_, h, -⟩ := h
      rcases createPairingIdempotent_cases h with h | ⟨rfl, -⟩
      · obtain ⟨p, hissues, hnode⟩ := issues_issuePairing h
        exact .inr ⟨p, hissues, intended_not_nil valid hnode⟩
      · exact .inl (.refl _ _)
    case consumePairing => obtain ⟨_, h, -⟩ := h; exact .inl (revises_consumePairing h)
    case acknowledgePairing => obtain ⟨_, h, -⟩ := h; exact .inl (revises_acknowledgePairing h)
    case failPairing => exact .inl (revises_failPairing h.1)
    case revokePairing => exact .inl (revises_revokePairing h.1)
    all_goals cases hop

/-! ### Over a history -/

/-- What holds of the rows of enrollment in every store. -/
structure Enrolled (db : Db) : Prop where
  created : ∀ p ∈ db.pairings.rows, OnCalendar p.createdAt ∧ OnCalendar p.expiresAt
  used : ∀ p ∈ db.pairings.rows, ∀ t, p.usedAt = some t → OnCalendar t
  acknowledged : ∀ p ∈ db.pairings.rows, ∀ t, p.acknowledgedAt = some t → OnCalendar t
  hashes : ∀ c ∈ db.workerCredentials.rows, validSha256 c.credentialHash = true
  derived : ∀ o ∈ db.pairingOperations.rows, ∃ p ∈ db.pairings.rows, p.DerivedBy db.pairingSeed o

theorem Enrolled.revise (h : Enrolled db) (hnow : OnCalendar now) (hr : Revises now db db') : Enrolled db' := by
  obtain ⟨⟨f, hrows, hf⟩, hoperations, hseed, hcredentials⟩ := hr
  have hmem : ∀ p' ∈ db'.pairings.rows, ∃ p ∈ db.pairings.rows, p.Revised now p' := by
    intro p' hp'
    rw [hrows] at hp'
    obtain ⟨p, hp, rfl⟩ := List.mem_map.1 hp'
    exact ⟨p, hp, hf p⟩
  refine ⟨fun p' hp' => ?_, fun p' hp' t ht => ?_, fun p' hp' t ht => ?_, fun c hc => ?_, fun o ho => ?_⟩
  · obtain ⟨p, hp, hrev⟩ := hmem p' hp'
    rw [hrev.createdAt, hrev.expiresAt]
    exact h.created p hp
  · obtain ⟨p, hp, hrev⟩ := hmem p' hp'
    rcases hrev.usedAt with hsame | hused
    · exact h.used p hp t (hsame.symm.trans ht)
    · cases hused.symm.trans ht
      exact hnow
  · obtain ⟨p, hp, hrev⟩ := hmem p' hp'
    rcases hrev.acknowledgedAt with hsame | hacknowledged
    · exact h.acknowledged p hp t (hsame.symm.trans ht)
    · cases hacknowledged.symm.trans ht
      exact hnow
  · rcases hcredentials c hc with hvalid | ⟨c₀, hc₀, hhash⟩
    · exact hvalid
    · rw [← hhash]
      exact h.hashes c₀ hc₀
  · rw [hoperations] at ho
    obtain ⟨p, hp, hid, hcode⟩ := h.derived o ho
    refine ⟨f p, by rw [hrows]; exact List.mem_map_of_mem hp, (hf p).id.trans hid, ?_⟩
    rw [(hf p).codeHash, (hf p).id, (hf p).intendedNodeId, (hf p).createdAt, hseed]
    exact hcode

theorem Enrolled.issue (h : Enrolled db) (hi : Issues db p db') : Enrolled db' := by
  have hmem : ∀ p', p' ∈ db'.pairings.rows ↔ p' ∈ db.pairings.rows ∨ p' = p := fun p' => Table.mem_insert hi.pairings
  refine ⟨fun p' hp' => ?_, fun p' hp' t ht => ?_, fun p' hp' t ht => ?_, fun c hc => ?_, fun o ho => ?_⟩
  · rcases (hmem p').1 hp' with hp' | rfl
    · exact h.created p' hp'
    · exact ⟨hi.createdAt, hi.expiresAt⟩
  · rcases (hmem p').1 hp' with hp' | rfl
    · exact h.used p' hp' t ht
    · cases hi.usedAt.symm.trans ht
  · rcases (hmem p').1 hp' with hp' | rfl
    · exact h.acknowledged p' hp' t ht
    · cases hi.acknowledgedAt.symm.trans ht
  · rw [hi.credentials] at hc
    exact h.hashes c hc
  · have hold : o ∈ db.pairingOperations.rows → ∃ p ∈ db'.pairings.rows, p.DerivedBy db'.pairingSeed o := by
      intro ho
      obtain ⟨p₀, hp₀, hderived⟩ := h.derived o ho
      exact ⟨p₀, (hmem p₀).2 (.inl hp₀), hi.seed ▸ hderived⟩
    rcases hi.operations with hsame | ⟨o₁, hinsert, hderived⟩
    · rw [hsame] at ho
      exact hold ho
    · rcases (Table.mem_insert hinsert).1 ho with ho | rfl
      · exact hold ho
      · exact ⟨p, (hmem p).2 (.inr rfl), hi.seed ▸ hderived⟩

theorem enrolled_step (h : Enrolled db) (call : Call) : Enrolled (step db call) := by
  rcases step_cases db call with ⟨db', answer, hexec, hstep⟩ | hstep
  · rw [hstep]
    rcases exec_pairings hexec with hrevises | ⟨p, hissues, -⟩
    · exact h.revise call.env.onCalendar hrevises
    · exact h.issue hissues
  · rw [hstep]
    exact h

theorem enrolled_storeAfter (seed : String) (calls : List Call) : Enrolled (storeAfter seed calls) := by
  have hempty : Enrolled (.empty seed) :=
    ⟨fun _ hp => absurd hp List.not_mem_nil, fun _ hp => absurd hp List.not_mem_nil,
      fun _ hp => absurd hp List.not_mem_nil, fun _ hc => absurd hc List.not_mem_nil, fun _ ho => absurd ho List.not_mem_nil⟩
  unfold storeAfter History.after
  generalize Db.empty seed = db at hempty
  induction calls generalizing db with
  | nil => exact hempty
  | cons call calls ih => exact ih _ (enrolled_step hempty call)

/-- The nodes that the store draws are not nil, as no random identifier is. -/
def DrawsNodes (calls : List Call) : Prop := ∀ call ∈ calls, (call.env.newV4 .pairingNode).isNil = false

/-- No pairing is for the nil node. -/
theorem intendedNodes_after (seed : String) {calls : List Call} (h : DrawsNodes calls) :
    ∀ p ∈ (storeAfter seed calls).pairings.rows, p.intendedNodeId.isNil = false := by
  have hempty : ∀ p ∈ (Db.empty seed).pairings.rows, p.intendedNodeId.isNil = false := fun _ hp => absurd hp List.not_mem_nil
  unfold storeAfter History.after
  generalize Db.empty seed = db at hempty
  induction calls generalizing db with
  | nil => exact hempty
  | cons call calls ih =>
    refine ih (fun c hc => h c (List.mem_cons_of_mem _ hc)) _ ?_
    rcases step_cases db call with ⟨db', answer, hexec, hstep⟩ | hstep
    · rw [hstep]
      rcases exec_pairings hexec with ⟨⟨f, hrows, hf⟩, -, -, -⟩ | ⟨p, hissues, hnode⟩
      · intro p' hp'
        rw [hrows] at hp'
        obtain ⟨p, hp, rfl⟩ := List.mem_map.1 hp'
        rw [(hf p).intendedNodeId]
        exact hempty p hp
      · intro p' hp'
        rcases (Table.mem_insert hissues.pairings).1 hp' with hp' | rfl
        · exact hempty p' hp'
        · exact hnode (h call List.mem_cons_self)
    · rw [hstep]
      exact hempty

end CYC
