import ClusterYourCodex.Jobs.Writes
import ClusterYourCodex.Proofs.Runs

/-! What a client may rely on about job rows and placement attempts over whole histories. Every call is a turn
of the book, so the laws of the book hold between any two states of a history: a version stands for one content
of the row, a finished run is not written again, a cancellation is not lost, and the attempts of a run are the
plans it was given. -/

namespace CYC

open Checked Relational

variable {env : Env} {db db' : Db} {r : Uuid} {seed : String} {calls later : List Call} {t : Int}

/-! ### The book of every history -/

/-- What holds of the book of a history that has seen no instant after `t`. -/
structure Booked (t : Int) (db : Db) : Prop where
  coherent : db.ledger.Coherent t
  sound : db.book.Sound
  recorded : db.book.Recorded

theorem booked_empty (t : Int) (seed : String) : Booked t (.empty seed) := by
  have absent : ∀ r, (Db.empty seed).book.jobs r = none := fun r => congrArg RunRows.job (rowsOf_empty seed r)
  have unrecorded : (Db.empty seed).book.attempts = [] := rfl
  refine ⟨fun _ => .absent, ⟨?_, ?_, ?_⟩, ⟨?_, ?_, ?_⟩⟩
  · intro r j hj
    rw [absent] at hj
    cases hj
  · intro r j hj
    rw [absent] at hj
    cases hj
  · intro r j hj
    rw [absent] at hj
    cases hj
  · intro a ha
    rw [unrecorded] at ha
    exact absurd ha List.not_mem_nil
  · intro r
    simp only [Book.attemptsOf, unrecorded]
    rfl
  · intro r
    simp only [Book.attemptsOf, unrecorded, absent]
    rfl

/-- One call is a turn of the book, whatever it answers. -/
theorem step_book (call : Call) (h : Booked t db) : db.book.Turn (step db call).book := by
  obtain ⟨db', a, hexec, hstep⟩ | hstep := step_cases db call
  · rw [hstep]
    exact exec_book h.sound h.recorded h.coherent hexec
  · rw [hstep]
    exact ⟨[], List.nodup_nil, .refl⟩

theorem booked_step (call : Call) (h : Booked t db) : Booked (max t call.env.finish.nanos) (step db call) := by
  have hsteps := step_steps True call h.coherent (.inl trivial)
  obtain ⟨rs, -, hbook⟩ := step_book call h
  exact ⟨Ledger.coherent_steps (h.coherent.mono (le_max_left ..)) hsteps,
    Book.sound_steps h.sound hbook, Book.recorded_steps h.recorded hbook⟩

theorem booked_after (seed : String) (calls : List Call) : ∃ t, Booked t (storeAfter seed calls) :=
  History.invariant (P := fun db => ∃ t, Booked t db) calls ⟨0, booked_empty 0 seed⟩ fun _ call ⟨_, hb⟩ => ⟨_, booked_step call hb⟩

/-- A longer history goes on from the book of a shorter one. -/
theorem book_after (seed : String) (calls later : List Call) : ∃ rs, (storeAfter seed calls).book.Sound ∧
    Book.Steps (storeAfter seed calls).book rs (storeAfter seed (calls ++ later)).book := by
  obtain ⟨t, hbooked⟩ := booked_after seed calls
  have hlater : ∃ t, Booked t (History.after step (storeAfter seed calls) later) ∧
      ∃ rs, Book.Steps (storeAfter seed calls).book rs (History.after step (storeAfter seed calls) later).book := by
    refine History.invariant (P := fun db => ∃ t, Booked t db ∧ ∃ rs, Book.Steps (storeAfter seed calls).book rs db.book) later
      ⟨t, hbooked, [], .refl⟩ ?_
    rintro db call ⟨t, hb, rs, hsteps⟩
    obtain ⟨rs', -, hstep⟩ := step_book call hb
    exact ⟨_, booked_step call hb, _, hsteps.trans hstep⟩
  obtain ⟨-, -, rs, hsteps⟩ := hlater
  rw [storeAfter_append]
  exact ⟨rs, hbooked.sound, hsteps⟩

/-! ### Versions -/

/-- Two states of one history, the second the later one: versions do not fall, one version of a row is one
content, and the row of a run that has ended stays. -/
structure VersionsKept (db db' : Db) : Prop where
  monotone : ∀ j ∈ db.jobs.rows, ∃ j' ∈ db'.jobs.rows, j'.runId = j.runId ∧ j.version ≤ j'.version
  content : ∀ j ∈ db.jobs.rows, ∀ j' ∈ db'.jobs.rows, j'.runId = j.runId → j'.version = j.version → j.version < i64Max →
    j'.run = j.run ∧ j'.cancelRequested = j.cancelRequested ∧ j'.planBinding = j.planBinding
  ended : ∀ j ∈ db.jobs.rows, ∀ j' ∈ db'.jobs.rows, j'.runId = j.runId → j.run.state.isTerminal = true →
    j'.run = j.run ∧ j'.cancelRequested = j.cancelRequested ∧ j'.planBinding = j.planBinding

theorem versionsKept_of_keeps (h : db.book.Keeps db'.book) : VersionsKept db db' := by
  have rows : ∀ j ∈ db.jobs.rows, ∃ j' ∈ db'.jobs.rows, j'.runId = j.runId ∧ Book.Kept j j' := by
    intro j hj
    obtain ⟨j', hj', hkept⟩ := h j.runId j (job_of_mem hj)
    obtain ⟨hmem, hrun⟩ := mem_of_job hj'
    exact ⟨j', hmem, hrun, hkept⟩
  have row : ∀ j ∈ db.jobs.rows, ∀ j' ∈ db'.jobs.rows, j'.runId = j.runId → Book.Kept j j' := by
    intro j hj j' hj' hrun
    obtain ⟨j₁, hj₁, hrun₁, hkept⟩ := rows j hj
    cases Table.eq_of_clash hj' hj₁ (JobRow.clash_of_runId _ _ (hrun.trans hrun₁.symm))
    exact hkept
  refine ⟨fun j hj => ?_, fun j hj j' hj' hrun hversion hlt => ?_, fun j hj j' hj' hrun hterminal => ?_⟩
  · obtain ⟨j', hj', hrun, hkept⟩ := rows j hj
    exact ⟨j', hj', hrun, hkept.version⟩
  · rw [(row j hj j' hj' hrun).same hversion hlt]
    exact ⟨rfl, rfl, rfl⟩
  · rw [(row j hj j' hj' hrun).terminal hterminal]
    exact ⟨rfl, rfl, rfl⟩

theorem versions_kept (seed : String) (calls later : List Call) :
    VersionsKept (storeAfter seed calls) (storeAfter seed (calls ++ later)) := by
  obtain ⟨rs, hsound, hsteps⟩ := book_after seed calls later
  exact versionsKept_of_keeps (Book.keeps_steps hsound hsteps)

/-! ### Cancellation -/

/-- A cancellation has reached the run: it is pending, or it ended the run while it was queued. -/
def JobRow.cancelling (j : JobRow) : Bool := j.cancelRequested || j.run.state = .cancelled

/-- What is left of a run that a cancellation has reached. -/
structure CancellationKept (db db' : Db) (j : JobRow) : Prop where
  unqueued : j.run.state ≠ .queued
  row : ∃ j' ∈ db'.jobs.rows, j'.runId = j.runId ∧ (j.cancelRequested = true → j'.cancelRequested = true) ∧
    (j'.run.state = j.run.state ∨ j'.run.state = .cancelled ∨ j'.run.state = .failed) ∧
    (j'.run.state.isTerminal = true → j'.run.state = .cancelled ∨ j'.run.state = .failed)
  undispatched : (db'.jobPlacementAttempts.rows.filter fun a => a.runId = j.runId) =
    db.jobPlacementAttempts.rows.filter fun a => a.runId = j.runId
  unclaimed : (db'.workerClaims.any fun c => c.runId = j.runId) = db.workerClaims.any fun c => c.runId = j.runId

theorem JobState.failed_of_isTerminal {s : JobState} (h : s.isTerminal = true) (hs : s ≠ .succeeded) :
    s = .cancelled ∨ s = .failed := by
  cases s with
  | succeeded => exact absurd rfl hs
  | failed => exact .inr rfl
  | cancelled => exact .inl rfl
  | queued | preparing | running | verifying => cases h

theorem cancellationKept_of_steps {rs : List Uuid} {j : JobRow} (hs : db.book.Sound) (h : Book.Steps db.book rs db'.book)
    (hj : j ∈ db.jobs.rows) (hcancel : j.cancelling = true) : CancellationKept db db' j := by
  have hstored : db.book.jobs j.runId = some j := job_of_mem hj
  have hflagged := hs.flagged j.runId j hstored
  obtain ⟨j', hj', hkept⟩ := Book.keeps_steps hs h j.runId j hstored
  obtain ⟨hmem, hrun⟩ := mem_of_job hj'
  simp only [JobRow.cancelling, Bool.or_eq_true, decide_eq_true_eq] at hcancel
  have hunqueued : j.run.state ≠ .queued := by
    rcases hcancel with hflag | hstate
    · exact (hflagged hflag).1
    · rw [hstate]
      decide
  have hmoves : j'.run.state = j.run.state ∨ j'.run.state = .cancelled ∨ j'.run.state = .failed := by
    rcases hcancel with hflag | hstate
    · exact hkept.obeyed hflag
    · rw [hkept.terminal (by rw [hstate]; rfl)]
      exact .inl rfl
  have hended : j'.run.state.isTerminal = true → j'.run.state = .cancelled ∨ j'.run.state = .failed := by
    intro hterminal
    rcases hcancel with hflag | hstate
    · -- a run with a pending cancellation has not succeeded
      have hfailed := ((Book.sound_steps hs h).flagged j.runId j' hj' (hkept.flag hflag)).2
      exact JobState.failed_of_isTerminal hterminal hfailed
    · rw [hkept.terminal (by rw [hstate]; rfl)]
      exact .inl hstate
  obtain ⟨hclaimed, hplans⟩ := Book.unclaimed_steps hs h hstored hunqueued
  obtain ⟨new, hattempts, hlength⟩ := Book.attemptsOf_steps (r := j.runId) h
  rw [List.count_eq_zero.2 hplans, List.length_eq_zero_iff] at hlength
  refine ⟨hunqueued, ⟨j', hmem, hrun, hkept.flag, hmoves, hended⟩, ?_, ?_⟩
  · rw [hlength, List.append_nil] at hattempts
    exact hattempts
  · rw [Table.any_eq_lookup, Table.any_eq_lookup]
    exact hclaimed

theorem cancelStored_eq_none {stored : StoredJob} (h : cancelStored env stored = .ok none) : stored.cancelRequested = true := by
  unfold cancelStored at h
  split at h
  · simp only [bind_eq_ok, pure_eq_ok] at h
    obtain ⟨_, -, h⟩ := h
    cases h
  all_goals
    first
      | cases h
      | split at h
        · assumption
        · cases h

/-- A cancellation that is granted reaches the run. -/
theorem cancelling_of_cancelJob {id : Uuid} {expectedVersion : Option Nat} {stored : StoredJob} (hb : Booked t db)
    (h : cancelJob env db id expectedVersion = .ok (db', stored)) :
    ∃ j ∈ db'.jobs.rows, j.named id = true ∧ j.cancelling = true := by
  simp only [cancelJob, bind_eq_ok, Prod.exists] at h
  obtain ⟨db₁, n, hexpire, stored₀, hget, -, -, cancelled, hcancel, h⟩ := h
  obtain ⟨j, hj, hid, hdecode⟩ := getJobPreferJobId_eq_ok hget
  obtain ⟨-, -, rfl⟩ := decodeJobRow_eq_ok.1 hdecode
  cases cancelled with
  | none =>
    cases h
    refine ⟨j, (mem_of_job hj).1, hid, ?_⟩
    rw [JobRow.cancelling, ← JobRow.stored_cancelRequested, cancelStored_eq_none hcancel]
    rfl
  | some stored₁ =>
    simp only [bind_eq_ok, pair_eq_ok, Prod.exists] at h
    obtain ⟨-, -, db₂, stored₂, hcas, db₃, hrelease, rfl, -⟩ := h
    obtain ⟨rs, -, hsteps, -⟩ := expireLeases_book hb.sound hb.recorded hb.coherent env.onCalendar hexpire
    have hrun := (Book.sound_steps hb.sound hsteps).run j.runId j hj
    have hstored : stored₁.run.id = j.runId ∧ (casRow env stored₁ j).cancelling = true := by
      rcases cancelStored_eq_some hcancel with ⟨-, run, hmoved, rfl⟩ | ⟨-, rfl⟩
      · exact ⟨hmoved.id.trans hrun, by simp [JobRow.cancelling, casRow, hmoved.state]⟩
      · exact ⟨hrun, rfl⟩
    have hbook := (book_releaseCancelled hrelease).trans (book_updateJobCas hj hstored.1 hcas)
    have hrow : (db₃.rowsOf j.runId).job = some (casRow env stored₁ j) := by
      show db₃.book.jobs j.runId = _
      rw [hbook, Book.setJob_jobs, Function.update_self]
    exact ⟨_, (mem_of_job hrow).1, hid, hstored.2⟩

/-- A cancellation that is granted reaches the run, and whatever is called afterwards, it is not lost: a pending
request stays, the run does not move on but to the ends of a failure, and it is neither dispatched nor claimed. -/
theorem cancellation_never_lost (seed : String) (calls later : List Call) :
    (∀ env id expectedVersion db' stored,
      exec env (storeAfter seed calls) (.cancelJob id expectedVersion) = .ok (db', .job stored) →
      ∃ j ∈ db'.jobs.rows, j.named id = true ∧ j.cancelling = true) ∧
    ∀ j ∈ (storeAfter seed calls).jobs.rows, j.cancelling = true →
      CancellationKept (storeAfter seed calls) (storeAfter seed (calls ++ later)) j := by
  constructor
  · intro env id expectedVersion db' stored hexec
    simp only [exec, answering_eq_ok] at hexec
    obtain ⟨_, hcancel, -⟩ := hexec
    obtain ⟨t, hbooked⟩ := booked_after seed calls
    exact cancelling_of_cancelJob hbooked hcancel
  · intro j hj hcancel
    obtain ⟨rs, hsound, hsteps⟩ := book_after seed calls later
    exact cancellationKept_of_steps hsound hsteps hj hcancel

/-- The claimed run is cancelled. -/
def cancelCalls : List Call :=
  dispatchCalls (sampleJob ⟨7⟩ .empty none) ++
    [⟨envAt 1000 22, .claimJob "a" ⟨1⟩ sampleProbe "https://c"⟩, ⟨envAt 1001 23, .cancelJob sampleRun none⟩]

theorem cancellation_never_lost_cancelCalls :
    (∃ j ∈ (storeAfter "s" cancelCalls).jobs.rows, j.cancelRequested = true) ∧
    ∀ j ∈ (storeAfter "s" cancelCalls).jobs.rows, j.cancelling = true →
      CancellationKept (storeAfter "s" cancelCalls) (storeAfter "s" (cancelCalls ++ [⟨envAt 1200 24, .listJobs 1⟩])) j :=
  ⟨by decide +kernel, (cancellation_never_lost _ _ _).2⟩

end CYC
