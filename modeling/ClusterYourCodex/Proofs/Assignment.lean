import ClusterYourCodex.Proofs.Runs

/-! Who gets a run. Workers poll for runs while dispatches expire and runs move from node to node; a
claim is the one move that ends this, and it is made once. From then on the run stays with the node of
its claim, whatever the history brings. -/

namespace CYC

variable {db : Db} {seed : String} {calls later : List Call} {call : Call} {r node : Uuid} {T t : Int}

/-- The run that the call hands out, and the node whose worker gets it. -/
def Call.assigned (call : Call) (db : Db) : Option (Uuid × Uuid) :=
  match call.op, exec call.env db call.op with
  | .claimJob _ nodeId _ _, .ok (_, .claim (some claim)) => some (claim.stored.run.id, nodeId)
  | _, _ => none

theorem Call.assigned_eq_some (h : call.assigned db = some (r, node)) :
    ∃ workerCredential probe endpoint db' claim, step db call = db' ∧ claim.stored.run.id = r ∧
      claimJob call.env db workerCredential (nodeFromProbe node none probe endpoint true) = .ok (db', some claim) := by
  unfold Call.assigned at h
  split at h
  · rename_i workerCredential nodeId probe endpoint db' claim hop hexec
    rw [Option.some.injEq, Prod.mk.injEq] at h
    obtain ⟨rfl, rfl⟩ := h
    have hstep := step_eq hexec
    rw [hop] at hexec
    simp only [exec, answering_eq_ok, Answer.claim.injEq] at hexec
    obtain ⟨_, hclaim, rfl⟩ := hexec
    exact ⟨workerCredential, probe, endpoint, db', claim, hstep, rfl, hclaim⟩
  · cases h

/-- The run is the node's: it has left the queue, and its lease and its binding name the node. -/
structure AssignedTo (db : Db) (r node : Uuid) : Prop where
  run : ∃ j ∈ db.jobs.rows, j.runId = r ∧ j.run.state ≠ .queued ∧ j.run.nodeId = some node ∧
    ∃ b, j.planBinding = some b ∧ b.decision.nodeId = node
  lease : ∃ l ∈ db.leases.rows, l.runId = r ∧ l.nodeId = node

/-- A claim of the run by the node is stored. -/
def Ledger.ClaimedBy (L : Ledger) (r node : Uuid) : Prop := ∃ c, (L.rows r).claim = some c ∧ c.nodeId = node

/-- What a stored claim says of its run. -/
theorem AssignedTo.of_claimedBy (hc : db.ledger.Coherent T) (h : db.ledger.ClaimedBy r node) : AssignedTo db r node := by
  obtain ⟨c, hclaim, rfl⟩ := h
  obtain ⟨j, hj⟩ := (hc r).job_of_claim hclaim
  obtain ⟨hstate, l, hl, hplaced, hnode⟩ := (hc r).placed_of_claim hj hclaim
  obtain ⟨hjmem, hjrun⟩ := mem_of_job hj
  obtain ⟨hlmem, hlrun⟩ := mem_of_lease hl
  obtain ⟨b, hb, -⟩ := hplaced.bound
  have hbound := hplaced.boundNode
  rw [JobRow.boundNode, hb, hnode] at hbound
  exact ⟨⟨j, hjmem, hjrun, hstate, hnode ▸ hplaced.node, b, hb, Option.some.inj hbound⟩, l, hlmem, hlrun, hnode⟩

/-- A run is handed out when no claim of it is stored, and one is stored by doing so. -/
theorem claims_of_assigned (h : call.assigned db = some (r, node)) (hc : db.ledger.Coherent T) :
    (db.ledger.rows r).claim = none ∧ (step db call).ledger.ClaimedBy r node := by
  obtain ⟨workerCredential, probe, endpoint, db', claim, hstep, rfl, hclaim⟩ := Call.assigned_eq_some h
  rw [hstep]
  obtain ⟨db₁, hsteps, ⟨hnone, -⟩ | ⟨w, j, l, hw, -, hrows, -, j', l', c, hassigned⟩⟩ := claimJob_eq_ok hc hclaim
  · cases hnone
  cases hw
  constructor
  · -- maintenance keeps claims, and after it there is none
    cases hbefore : (db.ledger.rows claim.stored.run.id).claim with
    | none => rfl
    | some c₀ =>
      obtain ⟨c₁, hafter, -⟩ := Ledger.claimsKept_steps hc hsteps _ c₀ hbefore
      rw [db₁.rows_ledger, hrows] at hafter
      cases hafter
  · refine ⟨c, ?_, hassigned.claimNode.trans hassigned.owner⟩
    rw [db'.rows_ledger, hassigned.rows]

/-- Whatever the history brings, a stored claim stays. -/
theorem claimedBy_after (later : List Call) (hs : Sound t db) (hclaimed : db.ledger.ClaimedBy r node) :
    ∃ t', Sound t' (History.after step db later) ∧ (History.after step db later).ledger.ClaimedBy r node := by
  refine History.invariant (P := fun db => ∃ t, Sound t db ∧ db.ledger.ClaimedBy r node) later ⟨t, hs, hclaimed⟩ ?_
  rintro db call ⟨t, hs, c, hc, hnode⟩
  obtain ⟨c', hc', hnode'⟩ :=
    Ledger.claimsKept_steps (hs.coherent.mono (le_max_left ..)) (step_steps True call hs.coherent (.inl trivial)) r c hc
  exact ⟨_, sound_step hs, c', hc', hnode'.trans hnode⟩

/-- A run is handed out at most once: from the call that hands it to a node on, it is the node's and out
of the queue, and no later poll gets it. -/
theorem assigned_at_most_once (ha : call.assigned (storeAfter seed calls) = some (r, node)) :
    AssignedTo (storeAfter seed (calls ++ call :: later)) r node ∧
      ∀ (call' : Call) (node' : Uuid), call'.assigned (storeAfter seed (calls ++ call :: later)) ≠ some (r, node') := by
  obtain ⟨t, hs⟩ := sound_after seed calls
  obtain ⟨t', hs', hclaimed⟩ := claimedBy_after later (sound_step hs) (claims_of_assigned ha hs.coherent).2
  rw [storeAfter_append]
  refine ⟨.of_claimedBy hs'.coherent hclaimed, fun call' node' ha' => ?_⟩
  obtain ⟨c, hc, -⟩ := hclaimed
  cases hc.symm.trans (claims_of_assigned ha' hs'.coherent).1

/-- The worker of node 1 gets the sample run, and keeps it while it executes. -/
theorem assigned_at_most_once_sampleRun :
    AssignedTo (storeAfter "s" sampleCalls) sampleRun ⟨1⟩ ∧
      ∀ (call' : Call) (node' : Uuid), call'.assigned (storeAfter "s" sampleCalls) ≠ some (sampleRun, node') :=
  @assigned_at_most_once "s" (dispatchCalls (sampleJob ⟨7⟩ .empty none)) executionCalls.tail
    (executionCalls.head (by decide)) sampleRun ⟨1⟩ (by decide +kernel)

end CYC
