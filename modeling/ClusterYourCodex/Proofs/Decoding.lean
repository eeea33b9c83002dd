import ClusterYourCodex.Proofs.Runs

/-! Whether the store can read back the job rows it wrote. The binding of a row and its run are checked
against each other on every read, and one operation writes rows that do not pass: the cancellation of
a run that waits for a node. Histories that cancel only runs that are active or have their lease on
offer leave every row readable. -/

namespace CYC

open Checked Relational

variable {db : Db} {r : Uuid} {seed : String} {calls : List Call}

/-- The node of a run is the one its binding names. -/
theorem Coherent.boundNode {T : Int} {rows : RunRows} {j : JobRow} (h : Coherent T r rows) (hj : rows.job = some j) :
    j.run.nodeId = none ∨ j.run.nodeId = j.boundNode := by
  cases h with
  | absent => cases hj
  | dispatched hd => cases hj; exact .inr (hd.node.trans hd.boundNode.symm)
  | waiting hw => cases hj; exact .inl hw.node
  | withdrawn hw => cases hj; exact hw.node
  | executing he => cases hj; exact .inr (he.node.trans he.boundNode.symm)
  | lost hl => cases hj; exact .inr (hl.node.trans hl.boundNode.symm)
  | completed hd => cases hj; exact .inr (hd.node.trans hd.boundNode.symm)

/-- What the checks of a row come to for the rows that the store keeps. -/
theorem decodeJobRow_iff {T : Int} {rows : RunRows} {j : JobRow} (h : Coherent T r rows) (hj : rows.job = some j) :
    decodeJobRow j = .ok j.stored ↔ (j.run.nodeId = none → j.run.state = .queued) := by
  obtain ⟨l, -, hleased⟩ := h.leased_of_job hj
  obtain ⟨b, hb, hvalid⟩ := hleased.bound
  have hnode := h.boundNode hj
  rw [JobRow.boundNode, hb] at hnode
  simp only [decodeJobRow_eq_ok, hb, checkSome_some, decodeBinding, seq_eq_ok, mapError_eq_ok, ensure_eq_ok, hvalid,
    hleased.runJob.trans hleased.job.symm, true_and, and_true, Bool.or_eq_true, decide_eq_true_eq]
  cases hn : j.run.nodeId with
  | none => simp
  | some n =>
    rw [hn] at hnode
    simpa using hnode

/-- Every row passes the checks of a read, and no selection of rows fails on one. -/
structure RowsReadable (db : Db) : Prop where
  rows : ∀ j ∈ db.jobs.rows, decodeJobRow j = .ok j.stored
  unplaced : ∀ j ∈ db.jobs.rows, j.run.nodeId = none → j.run.state = .queued
  placed : ∀ j ∈ db.jobs.rows, ∀ b, j.planBinding = some b → ∀ n, j.run.nodeId = some n → b.decision.nodeId = n
  read : ∀ id e, getJobPreferJobId db id = .error e → e = .notFound
  select : ∀ js : List JobRow, (∀ j ∈ js, j ∈ db.jobs.rows) → collect decodeJobRow js = .ok (js.map JobRow.stored)

theorem getJobPreferJobId_eq_error {id : Uuid} {e : StoreError} (h : ∀ j ∈ db.jobs.rows, decodeJobRow j = .ok j.stored)
    (he : getJobPreferJobId db id = .error e) : e = .notFound := by
  have found : ∀ (q : JobRow → Bool) e, (required (db.jobs.find q) .notFound >>= decodeJobRow) = .error e → e = .notFound := by
    intro q e he
    rw [bind_eq_error] at he
    rcases he with he | ⟨j, hj, he⟩
    · exact (required_eq_error.1 he).2.symm
    · rw [h j (Table.find_some (required_eq_ok.1 hj)).1] at he
      cases he
  unfold getJobPreferJobId at he
  split at he
  · exact found _ e he
  · exact found _ e he

theorem rowsReadable {t : Int} (hs : Sound t db) (hr : db.ledger.Readable) : RowsReadable db := by
  have unplaced : ∀ j ∈ db.jobs.rows, j.run.nodeId = none → j.run.state = .queued := fun j hj =>
    hr j.runId j (job_of_mem hj)
  have rows : ∀ j ∈ db.jobs.rows, decodeJobRow j = .ok j.stored := fun j hj =>
    (decodeJobRow_iff (hs.coherent j.runId) (job_of_mem hj)).2 (unplaced j hj)
  refine ⟨rows, unplaced, ?_, fun id e => getJobPreferJobId_eq_error rows, fun js hjs => ?_⟩
  · intro j hj b hb n hn
    have hnode := (hs.coherent j.runId).boundNode (job_of_mem hj)
    rw [JobRow.boundNode, hb, hn] at hnode
    rcases hnode with hnone | hsome
    · cases hnone
    · exact (Option.some.inj hsome).symm
  · exact collect_of_forall fun j hj => rows j (hjs j hj)

/-- The condition on a call: a queued run that it cancels has its lease on offer. -/
def Call.Offered (db : Db) (call : Call) : Prop := call.op.Offered call.env.now.timestamp db

instance (db : Db) (call : Call) : Decidable (call.Offered db) := inferInstanceAs (Decidable (Op.Offered _ _ _))

/-- In every history whose cancellations meet the condition, the store can read what it wrote. -/
theorem rows_readable_along (ha : History.Along step (fun db call => call.Offered db) (.empty seed) calls) :
    RowsReadable (storeAfter seed calls) := by
  obtain ⟨t, hs, hr⟩ := History.invariant_along (P := fun db => ∃ t, Sound t db ∧ db.ledger.Readable) ha
    ⟨0, sound_empty 0 seed, fun r j hj => by rw [Db.rows_ledger, rowsOf_empty] at hj; cases hj⟩
    fun _ call ⟨_, hs, hr⟩ hok => ⟨_, sound_step hs, Ledger.readable_steps hr (step_steps False call hs.coherent (.inr hok))⟩
  exact rowsReadable hs hr

/-- A dispatched run is cancelled in time. -/
theorem rows_readable_along_sample :
    RowsReadable (storeAfter "s" (dispatchCalls (sampleJob ⟨7⟩ .empty none) ++ [⟨envAt 1020 22, .cancelJob ⟨7⟩ none⟩])) :=
  rows_readable_along (by decide +kernel)

/-- The worker stays silent until the lease has expired and its report is stale, and the run is cancelled. -/
theorem cancelled_without_node_unreadable :
    let calls := dispatchCalls (sampleJob ⟨7⟩ .empty none) ++ [⟨envAt 1040 22, .cancelJob ⟨7⟩ none⟩]
    Chronological calls ∧
      getJobPreferJobId (storeAfter "s" calls) ⟨7⟩ = .error .invalidPlanBinding ∧
      ∃ j ∈ (storeAfter "s" calls).jobs.rows, decodeJobRow j = .error .invalidPlanBinding ∧
        j.planBinding.isSome = true ∧ j.run.nodeId = none ∧ j.run.state = .cancelled :=
  ⟨⟨0, by decide +kernel⟩, by decide +kernel⟩

end CYC
