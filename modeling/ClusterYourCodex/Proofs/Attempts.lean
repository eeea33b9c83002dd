import ClusterYourCodex.Proofs.Versions

/-! The ledger of placement attempts. The attempts of a run are the plans it was given, numbered from one, in the
order in which calls installed them; the last is the binding of the row. No plan is in two attempts, and so a plan
that a client made is consumed by one submission at most. -/

namespace CYC

open Checked Relational

variable {env : Env} {db db' : Db} {r : Uuid} {seed : String} {calls later : List Call} {t : Int}

namespace Db

def attemptsOf (db : Db) (r : Uuid) : List PlacementAttemptRow := db.jobPlacementAttempts.rows.filter fun a => a.runId = r

/-- The plan that the run is bound to. -/
def bindingOf (db : Db) (r : Uuid) : Option PlacementPlanBinding := (db.jobs.lookup JobRow.runId r).bind JobRow.planBinding

end Db

/-- The plan that a call installs for the run. -/
def installs (r : Uuid) (db : Db) (call : Call) : Option PlacementPlanBinding :=
  if (step db call).bindingOf r = db.bindingOf r then none else (step db call).bindingOf r

/-- The plans that the calls install for the run, in order. -/
def installed (r : Uuid) (db : Db) (calls : List Call) : List PlacementPlanBinding :=
  History.emitted step (installs r) db calls

/-- The job that a call submits under the plan of an earlier call. -/
def consumes (p : Uuid) (db : Db) (call : Call) : Option Uuid :=
  match call.op, exec call.env db call.op with
  | .submitJob _ (some q), .ok (_, .job stored) => if q = p then some stored.job.id else none
  | _, _ => none

/-- The jobs that consume the plan, in order. -/
def consumers (p : Uuid) (db : Db) (calls : List Call) : List Uuid := History.emitted step (consumes p) db calls

/-! ### One call -/

theorem planId_ne {a b : PlacementAttemptRow} (h : Schema.clash a b = false) : a.planId ≠ b.planId := by
  intro he
  simp [Schema.clash, he] at h

theorem planIds_pairwise (db : Db) : db.jobPlacementAttempts.rows.Pairwise fun a b => a.planId ≠ b.planId :=
  db.jobPlacementAttempts.apart.imp planId_ne

/-- What a call adds to the attempts of a run is the plan it installs. -/
theorem attemptsOf_step {call : Call} (h : Booked t db) :
    ((step db call).attemptsOf r).map PlacementAttemptRow.planBinding =
      (db.attemptsOf r).map PlacementAttemptRow.planBinding ++ (installs r db call).toList := by
  obtain ⟨rs, hnodup, hsteps⟩ := step_book call h
  have hrecorded := Book.recorded_steps h.recorded hsteps
  have hbefore : db.bindingOf r = (db.attemptsOf r).getLast?.map PlacementAttemptRow.planBinding := h.recorded.current r
  have hafter : (step db call).bindingOf r =
      ((step db call).attemptsOf r).getLast?.map PlacementAttemptRow.planBinding := hrecorded.current r
  obtain ⟨new, happend, hcount⟩ := Book.attemptsOf_steps (r := r) hsteps
  replace happend : (step db call).attemptsOf r = db.attemptsOf r ++ new := happend
  have hle : new.length ≤ 1 := hcount ▸ List.nodup_iff_count_le_one.1 hnodup r
  rcases new with _ | ⟨a, rest⟩
  · rw [List.append_nil] at happend
    rw [installs, if_pos (by rw [hafter, hbefore, happend]), happend, Option.toList_none, List.append_nil]
  · have hrest : rest = [] := List.length_eq_zero_iff.1 (by simp only [List.length_cons] at hle; omega)
    subst hrest
    rw [happend, List.getLast?_append, List.getLast?_singleton, Option.some_or, Option.map_some] at hafter
    -- the new attempt has a plan of its own, so the binding changes
    have hne : (step db call).bindingOf r ≠ db.bindingOf r := by
      rw [hafter, hbefore]
      intro hsame
      obtain ⟨b, hb, hbinding⟩ := Option.map_eq_some_iff.1 hsame.symm
      have hb' : b ∈ db.attemptsOf r := List.mem_of_getLast? hb
      have hpairs := (planIds_pairwise (step db call)).filter fun a => decide (a.runId = r)
      have hpairs : ((step db call).attemptsOf r).Pairwise fun a b => a.planId ≠ b.planId := hpairs
      rw [happend, List.pairwise_append] at hpairs
      have hplan : ∀ x ∈ (step db call).attemptsOf r, x.planId = x.planBinding.planId := fun x hx =>
        hrecorded.plans x (List.mem_filter.1 hx).1
      refine hpairs.2.2 b hb' a List.mem_cons_self ?_
      rw [hplan b (by rw [happend]; exact List.mem_append_left _ hb'),
        hplan a (by rw [happend]; exact List.mem_append_right _ List.mem_cons_self), hbinding]
    rw [installs, if_neg hne, hafter, happend, List.map_append]
    rfl

theorem planId_of_getPlan {p : Uuid} {plan : StoredPlan} (h : getPlan db p = .ok plan) : plan.binding.planId = p := by
  simp only [getPlan, bind_eq_ok, pure_eq_ok] at h
  obtain ⟨_, -, _, -, _, -, -, -, _, -, rfl⟩ := h
  rfl

/-- A submission under a plan records the plan as the first attempt of its run. -/
theorem submitJob_attempt {job : JobSpec} {scheduler : Scheduler} {p : Uuid} {stored : StoredJob} (hc : db.ledger.Coherent t)
    (h : submitJob env db job (some p) scheduler = .ok (db', stored)) :
    ∃ db₁ n a, expireLeases env db env.now.timestamp = .ok (db₁, n) ∧ a.planId = p ∧
      db₁.jobPlacementAttempts.insert a = some db'.jobPlacementAttempts := by
  simp only [submitJob, placeSubmission, acceptPlan, Env.second, bind_eq_ok, timestamp_eq_ok, pair_eq_ok,
    Prod.exists] at h
  obtain ⟨-, -, _, ⟨hnow, rfl⟩, -, -, db₁, n, hexpire, nodes, -, db₂, decision, binding,
    ⟨_, _, ⟨plan, hplan, -, -, -, -, -, -, -, -, -, -, _, -, -, -, _, -, -, -, rfl, rfl⟩, rfl, rfl, rfl⟩, run, hrun, _, -,
    db₃, hinsert, db₄, hmark, db₅, hinc, rfl, -⟩ := h
  rw [DateTime.timestamp_ofTimestamp] at hexpire
  have hc₁ := Ledger.coherent_steps hc (expireLeases_steps hc hnow hexpire).1
  obtain ⟨hfresh, -⟩ := uniqueQueuedRun_eq_ok hrun
  obtain ⟨-, hattempt⟩ := insertRun_eq_ok (rowsOf_of_not_occupied hc₁ hfresh) rfl hinsert
  refine ⟨_, n, _, hexpire, planId_of_getPlan hplan, hattempt.trans ?_⟩
  rw [(incrementFleetRevision_eq_ok.1 hinc).2, markPlanUsed_eq_ok hmark]

/-- A submission under a plan adds the plan's attempt, which the ledger did not have. -/
theorem attempt_of_consumes {call : Call} {p job : Uuid} (h : Booked t db) (hconsumes : consumes p db call = some job) :
    (∀ a ∈ db.jobPlacementAttempts.rows, a.planId ≠ p) ∧ ∃ a ∈ (step db call).jobPlacementAttempts.rows, a.planId = p := by
  unfold consumes at hconsumes
  split at hconsumes
  · rename_i spec q db' stored hop hexec
    split at hconsumes
    · rename_i hq
      subst hq
      rw [step_eq hexec]
      rw [hop] at hexec
      simp only [exec, answering_eq_ok] at hexec
      obtain ⟨_, hsubmit, -⟩ := hexec
      obtain ⟨db₁, n, a, hexpire, hplan, hinsert⟩ := submitJob_attempt h.coherent hsubmit
      obtain ⟨rs, -, hsteps, -⟩ := expireLeases_book h.sound h.recorded h.coherent call.env.onCalendar hexpire
      obtain ⟨new, happend, -⟩ := Book.attempts_steps hsteps
      obtain ⟨hrows, hapart⟩ := Table.insert_eq_some hinsert
      refine ⟨fun x hx => ?_, a, by rw [hrows]; exact List.mem_append_right _ List.mem_cons_self, hplan⟩
      have hx₁ : x ∈ db₁.book.attempts := happend ▸ List.mem_append_left new hx
      exact hplan ▸ planId_ne (hapart x hx₁)
    · cases hconsumes
  · cases hconsumes

/-! ### Histories -/

/-- The induction is on the calls, from any state of a history. -/
theorem attemptsOf_after (h : Booked t db) :
    ((History.after step db calls).attemptsOf r).map PlacementAttemptRow.planBinding =
      (db.attemptsOf r).map PlacementAttemptRow.planBinding ++ installed r db calls := by
  induction calls generalizing t db with
  | nil => exact (List.append_nil _).symm
  | cons call calls ih =>
    have hrest := ih (booked_step call h)
    rw [attemptsOf_step h, List.append_assoc] at hrest
    exact hrest

/-- A plan that is in the ledger is not consumed again, and one that is not is consumed once at most. -/
theorem consumers_after {p : Uuid} (h : Booked t db) :
    (consumers p db calls).length ≤ 1 ∧
      ((∃ a ∈ db.jobPlacementAttempts.rows, a.planId = p) → consumers p db calls = []) := by
  induction calls generalizing t db with
  | nil => exact ⟨Nat.zero_le _, fun _ => rfl⟩
  | cons call calls ih =>
    obtain ⟨hle, hnone⟩ := ih (booked_step call h)
    have hsplit : consumers p db (call :: calls) = (consumes p db call).toList ++ consumers p (step db call) calls := rfl
    cases hfirst : consumes p db call with
    | none =>
      rw [hsplit, hfirst]
      obtain ⟨rs, -, hsteps⟩ := step_book call h
      obtain ⟨new, happend, -⟩ := Book.attempts_steps hsteps
      replace happend : (step db call).jobPlacementAttempts.rows = db.jobPlacementAttempts.rows ++ new := happend
      exact ⟨hle, fun ⟨a, ha, hplan⟩ => hnone ⟨a, happend ▸ List.mem_append_left new ha, hplan⟩⟩
    | some job =>
      obtain ⟨hunused, hused⟩ := attempt_of_consumes h hfirst
      rw [hsplit, hfirst, hnone hused]
      exact ⟨le_rfl, fun ⟨a, ha, hplan⟩ => absurd hplan (hunused a ha)⟩

/-- The ledger of attempts after the calls. -/
structure AttemptsRecorded (seed : String) (calls : List Call) (db : Db) : Prop where
  numbered : ∀ j ∈ db.jobs.rows, ∀ b, j.planBinding = some b →
    (db.attemptsOf j.runId).map PlacementAttemptRow.attempt =
      (List.range (db.attemptsOf j.runId).length).map fun i : Nat => (i : Int) + 1
  current : ∀ j ∈ db.jobs.rows, ∀ b, j.planBinding = some b →
    (db.attemptsOf j.runId).getLast?.map PlacementAttemptRow.planBinding = some b
  history : ∀ r, (db.attemptsOf r).map PlacementAttemptRow.planBinding = installed r (.empty seed) calls
  plans : db.jobPlacementAttempts.rows.Pairwise fun a b => a.planId ≠ b.planId
  consumed : ∀ p, (consumers p (.empty seed) calls).length ≤ 1

/-- After any history the attempts of a run are the plans it was given, and later calls only add to them. -/
theorem attempts_recorded (seed : String) (calls later : List Call) : AttemptsRecorded seed calls (storeAfter seed calls) ∧
    ∃ new, (storeAfter seed (calls ++ later)).jobPlacementAttempts.rows =
      (storeAfter seed calls).jobPlacementAttempts.rows ++ new := by
  obtain ⟨rs, -, hsteps⟩ := book_after seed calls later
  obtain ⟨new, happend, -⟩ := Book.attempts_steps hsteps
  refine ⟨?_, new, happend⟩
  obtain ⟨t, hbooked⟩ := booked_after seed calls
  refine ⟨fun j _ b _ => hbooked.recorded.numbered j.runId, fun j hj b hb => ?_, fun r => ?_, planIds_pairwise _,
    fun p => (consumers_after (booked_empty 0 seed)).1⟩
  · have hcurrent := hbooked.recorded.current j.runId
    rw [show (storeAfter seed calls).book.jobs j.runId = some j from job_of_mem hj, Option.bind_some, hb] at hcurrent
    exact hcurrent.symm
  · exact attemptsOf_after (booked_empty 0 seed)

/-- A dispatch that no worker takes up is placed again. -/
def redispatchCalls : List Call :=
  dispatchCalls (sampleJob ⟨7⟩ .empty none) ++
    [⟨envAt 1029 22, .recordNodeReport "a" (sampleReport 1 2 ⟨77⟩)⟩, ⟨envAt 1030 23, .listJobs 1⟩]

theorem attempts_recorded_redispatchCalls :
    ((storeAfter "s" redispatchCalls).attemptsOf sampleRun).length = 2 ∧
      AttemptsRecorded "s" redispatchCalls (storeAfter "s" redispatchCalls) ∧
      ∃ new, (storeAfter "s" (redispatchCalls ++ [⟨envAt 1031 24, .listJobs 1⟩])).jobPlacementAttempts.rows =
        (storeAfter "s" redispatchCalls).jobPlacementAttempts.rows ++ new :=
  ⟨by decide +kernel, attempts_recorded _ _ _⟩

end CYC
