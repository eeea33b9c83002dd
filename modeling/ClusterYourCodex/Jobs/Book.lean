import ClusterYourCodex.Ledger.Statements

/-! What happens to job rows and to the ledger of placement attempts, seen apart from the operations that
write them. A book holds the row of every run, whether a worker has claimed the run, and the attempts in
the order in which they were recorded. `Step` lists the changes: a row is written under its version,
claimed, bound to another plan, or made. What a version, a cancellation or an attempt is worth to a client
is proved here, of these changes. -/

namespace CYC

/-- A row written under its version: the columns of the job stay, and the version counts the write. -/
structure JobRow.Bumped (j j' : JobRow) : Prop where
  jobId : j'.jobId = j.jobId
  job : j'.job = j.job
  leaseId : j'.leaseId = j.leaseId
  run : j'.run.id = j.run.id
  version : j'.version = asI64 (satU64 (asU64 j.version + 1))

/-- The writes that leave the binding alone. -/
inductive JobRow.Change (j j' : JobRow) : Prop
  /-- A queued run loses its node or learns why there is none. -/
  | unplaced {placement : Option PlacementExplain} (queued : j.run.state = .queued)
      (run : j'.run = { j.run with nodeId := none, placement }) (flag : j'.cancelRequested = j.cancelRequested)
  /-- The run moves on; a cancellation that is pending allows only the two ends of a failure. -/
  | moved (legal : j.run.state.canTransitionTo j'.run.state = true) (flag : j'.cancelRequested = j.cancelRequested)
      (obeyed : j.cancelRequested = true → j'.run.state = .cancelled ∨ j'.run.state = .failed)
  /-- A client asks for the cancellation of an active run. -/
  | requested (active : j.run.state.isActive = true) (run : j'.run = j.run) (flag : j'.cancelRequested = true)

@[ext] structure Book where
  jobs : Uuid → Option JobRow
  claimed : Uuid → Bool
  attempts : List PlacementAttemptRow

namespace Book

variable {B B' B'' : Book} {r : Uuid} {rs rs' : List Uuid}

/-- The attempts of one run, in the order in which they were recorded. -/
def attemptsOf (B : Book) (r : Uuid) : List PlacementAttemptRow := B.attempts.filter fun a => a.runId = r

/-- The number of the latest attempt. -/
def latestAttempt (B : Book) (r : Uuid) : Int := (B.attemptsOf r).foldl (fun m a => max m a.attempt) 0

/-- Writes the row of one run. -/
def setJob (B : Book) (r : Uuid) (j : JobRow) : Book := { B with jobs := Function.update B.jobs r (some j) }

/-- The next attempt of a run. -/
structure Next (B : Book) (r : Uuid) (a : PlacementAttemptRow) : Prop where
  run : a.runId = r
  number : a.attempt = B.latestAttempt r + 1
  plan : a.planId = a.planBinding.planId

/-- The changes of a book, with the run that is given a plan. -/
inductive Step : List Uuid → Book → Book → Prop
  | change {B r j j'} (stored : B.jobs r = some j) (bumped : j.Bumped j') (change : j.Change j')
      (binding : j'.planBinding = j.planBinding) : Step [] B (B.setJob r j')
  | claim {B r j j'} (stored : B.jobs r = some j) (bumped : j.Bumped j') (queued : j.run.state = .queued)
      (uncancelled : j.cancelRequested = false) (state : j'.run.state = .preparing)
      (flag : j'.cancelRequested = false) (binding : j'.planBinding = j.planBinding) :
      Step [] B { B.setJob r j' with claimed := Function.update B.claimed r true }
  | bind {B r j j' a} (stored : B.jobs r = some j) (bumped : j.Bumped j') (queued : j.run.state = .queued)
      (uncancelled : j.cancelRequested = false) (state : j'.run.state = .queued) (flag : j'.cancelRequested = false)
      (next : B.Next r a) (binding : j'.planBinding = some a.planBinding) :
      Step [r] B { B.setJob r j' with attempts := B.attempts ++ [a] }
  | submit {B r j a} (absent : B.jobs r = none) (run : j.run.id = r) (version : j.version = 0)
      (queued : j.run.state = .queued) (uncancelled : j.cancelRequested = false) (next : B.Next r a)
      (binding : j.planBinding = some a.planBinding) :
      Step [r] B { B.setJob r j with attempts := B.attempts ++ [a] }

/-- A sequence of changes, with the runs that were given plans. -/
inductive Steps (B : Book) : List Uuid → Book → Prop
  | refl : Steps B [] B
  | tail {runs runs' : List Uuid} {B₁ B₂ : Book} (steps : Steps B runs B₁) (step : Step runs' B₁ B₂) :
      Steps B (runs ++ runs') B₂

theorem Steps.single (h : Step rs B B') : Steps B rs B' := .tail .refl h

theorem Steps.trans (h : Steps B rs B') (h' : Steps B' rs' B'') : Steps B (rs ++ rs') B'' := by
  induction h' with
  | refl => rwa [List.append_nil]
  | tail _ step ih =>
    rw [← List.append_assoc]
    exact .tail ih step

@[simp] theorem setJob_jobs (B : Book) (r : Uuid) (j : JobRow) : (B.setJob r j).jobs = Function.update B.jobs r (some j) := rfl

/-! ### Rows -/

/-- What is true of every stored row: it names its run, its version fits the column, and a pending
cancellation has met an active run. -/
structure Sound (B : Book) : Prop where
  run : ∀ r j, B.jobs r = some j → j.run.id = r
  version : ∀ r j, B.jobs r = some j → 0 ≤ j.version ∧ j.version ≤ i64Max
  flagged : ∀ r j, B.jobs r = some j → j.cancelRequested = true → j.run.state ≠ .queued ∧ j.run.state ≠ .succeeded

/-- A row and what may become of it. -/
structure Kept (j j' : JobRow) : Prop where
  version : j.version ≤ j'.version
  same : j'.version = j.version → j.version < i64Max → j' = j
  terminal : j.run.state.isTerminal = true → j' = j
  flag : j.cancelRequested = true → j'.cancelRequested = true
  obeyed : j.cancelRequested = true →
    j'.run.state = j.run.state ∨ j'.run.state = .cancelled ∨ j'.run.state = .failed
  started : j.run.state ≠ .queued → j'.run.state ≠ .queued

theorem Kept.refl (j : JobRow) : Kept j j := ⟨le_rfl, fun _ _ => rfl, fun _ => rfl, id, fun _ => .inl rfl, id⟩

theorem Kept.trans {j₁ j₂ j₃ : JobRow} (h : Kept j₁ j₂) (h' : Kept j₂ j₃) : Kept j₁ j₃ where
  version := h.version.trans h'.version
  same heq hlt := by
    -- the version of the row in between is pinned from both sides
    have hbetween : j₂.version = j₁.version := le_antisymm (heq ▸ h'.version) h.version
    rw [h'.same (heq.trans hbetween.symm) (hbetween ▸ hlt), h.same hbetween hlt]
  terminal ht := by
    have h₂ := h.terminal ht
    rw [h'.terminal (h₂ ▸ ht), h₂]
  flag hf := h'.flag (h.flag hf)
  obeyed hf := by
    rcases h.obeyed hf with h₁ | h₁ | h₁
    · rcases h'.obeyed (h.flag hf) with h₂ | h₂ | h₂
      · exact .inl (h₂.trans h₁)
      · exact .inr (.inl h₂)
      · exact .inr (.inr h₂)
    · rw [h'.terminal (by rw [h₁]; rfl)]
      exact .inr (.inl h₁)
    · rw [h'.terminal (by rw [h₁]; rfl)]
      exact .inr (.inr h₁)
  started hq := h'.started (h.started hq)

theorem bumped_version {v : Int} (h : 0 ≤ v ∧ v ≤ i64Max) :
    v ≤ asI64 (satU64 (asU64 v + 1)) ∧ (v < i64Max → v < asI64 (satU64 (asU64 v + 1))) := by
  unfold asI64 satU64 asU64 u64Max i64Max at *
  omega

variable {j j' : JobRow} {a : PlacementAttemptRow}

/-- A write to a row that is not finished. -/
theorem Kept.of_bumped (hv : 0 ≤ j.version ∧ j.version ≤ i64Max) (h : j.Bumped j')
    (hactive : j.run.state.isTerminal = false) (hflag : j.cancelRequested = true → j'.cancelRequested = true)
    (hobeyed : j.cancelRequested = true →
      j'.run.state = j.run.state ∨ j'.run.state = .cancelled ∨ j'.run.state = .failed)
    (hstarted : j.run.state ≠ .queued → j'.run.state ≠ .queued) : Kept j j' where
  version := h.version ▸ (bumped_version hv).1
  same heq hlt := by
    have hraised := (bumped_version hv).2 hlt
    rw [← h.version, heq] at hraised
    exact absurd hraised (lt_irrefl _)
  terminal ht := by rw [hactive] at ht; cases ht
  flag := hflag
  obeyed := hobeyed
  started := hstarted

/-- A write to a queued run that nobody asked to cancel. -/
theorem Kept.of_queued (hv : 0 ≤ j.version ∧ j.version ≤ i64Max) (h : j.Bumped j')
    (queued : j.run.state = .queued) (uncancelled : j.cancelRequested = false) : Kept j j' := by
  have hnone : j.cancelRequested ≠ true := by simp [uncancelled]
  exact .of_bumped hv h (by rw [queued]; rfl) (fun hf => absurd hf hnone) (fun hf => absurd hf hnone)
    fun hq => absurd queued hq

theorem isTerminal_of_canTransitionTo {s t : JobState} (h : s.canTransitionTo t = true) : s.isTerminal = false := by
  cases s with
  | queued | preparing | running | verifying => rfl
  | succeeded | failed | cancelled => cases h

theorem Kept.of_change (hv : 0 ≤ j.version ∧ j.version ≤ i64Max) (hb : j.Bumped j') (h : j.Change j') : Kept j j' := by
  cases h with
  | unplaced queued run flag =>
    refine .of_bumped hv hb (by rw [queued]; rfl) (fun hf => flag ▸ hf) (fun _ => .inl ?_) fun hq => absurd queued hq
    rw [run]
  | moved legal flag obeyed =>
    refine .of_bumped hv hb (isTerminal_of_canTransitionTo legal) (fun hf => flag ▸ hf) (fun hf => .inr (obeyed hf)) ?_
    intro _ hq
    rw [hq] at legal
    cases hs : j.run.state <;> rw [hs] at legal <;> cases legal
  | requested active run flag =>
    refine .of_bumped hv hb (JobState.isTerminal_of_isActive active) (fun _ => flag) (fun _ => .inl (by rw [run])) ?_
    rw [run]
    exact id

/-- Every row of a book is kept in another. -/
def Keeps (B B' : Book) : Prop := ∀ r j, B.jobs r = some j → ∃ j', B'.jobs r = some j' ∧ Kept j j'

theorem Keeps.refl (B : Book) : B.Keeps B := fun _ j h => ⟨j, h, .refl j⟩

theorem Keeps.trans (h : B.Keeps B') (h' : B'.Keeps B'') : B.Keeps B'' := by
  intro r j hj
  obtain ⟨j₁, hj₁, hkept₁⟩ := h r j hj
  obtain ⟨j₂, hj₂, hkept₂⟩ := h' r j₁ hj₁
  exact ⟨j₂, hj₂, hkept₁.trans hkept₂⟩

/-- Writing one row. -/
theorem Keeps.of_update (hjobs : B'.jobs = Function.update B.jobs r (some j'))
    (h : ∀ j, B.jobs r = some j → Kept j j') : B.Keeps B' := by
  intro r' j hj
  rw [hjobs]
  by_cases he : r' = r
  · subst he
    exact ⟨j', Function.update_self .., h j hj⟩
  · exact ⟨j, by rw [Function.update_of_ne he, hj], .refl j⟩

theorem keeps_step (hs : B.Sound) (h : Step rs B B') : B.Keeps B' := by
  cases h with
  | change stored bumped change =>
    refine .of_update rfl fun j hj => ?_
    cases stored.symm.trans hj
    exact .of_change (hs.version _ _ stored) bumped change
  | claim stored bumped queued uncancelled | bind stored bumped queued uncancelled =>
    refine .of_update rfl fun j hj => ?_
    cases stored.symm.trans hj
    exact .of_queued (hs.version _ _ stored) bumped queued uncancelled
  | submit absent =>
    refine .of_update rfl fun j hj => ?_
    cases absent.symm.trans hj

/-- Soundness of a book with one row written. -/
theorem Sound.of_update (hs : B.Sound) (hjobs : B'.jobs = Function.update B.jobs r (some j'))
    (hrun : j'.run.id = r) (hversion : 0 ≤ j'.version ∧ j'.version ≤ i64Max)
    (hflag : j'.cancelRequested = true → j'.run.state ≠ .queued ∧ j'.run.state ≠ .succeeded) : B'.Sound := by
  have rows : ∀ r' j, B'.jobs r' = some j → (r' = r ∧ j = j') ∨ B.jobs r' = some j := by
    intro r' j hj
    rw [hjobs] at hj
    by_cases he : r' = r
    · subst he
      rw [Function.update_self] at hj
      exact .inl ⟨rfl, (Option.some.inj hj).symm⟩
    · rw [Function.update_of_ne he] at hj
      exact .inr hj
  refine ⟨fun r' j hj => ?_, fun r' j hj => ?_, fun r' j hj => ?_⟩
  · rcases rows r' j hj with ⟨rfl, rfl⟩ | hold
    · exact hrun
    · exact hs.run r' j hold
  · rcases rows r' j hj with ⟨rfl, rfl⟩ | hold
    · exact hversion
    · exact hs.version r' j hold
  · rcases rows r' j hj with ⟨rfl, rfl⟩ | hold
    · exact hflag
    · exact hs.flagged r' j hold

theorem sound_step (hs : B.Sound) (h : Step rs B B') : B'.Sound := by
  cases h with
  | @change _ r j j' stored bumped change =>
    refine hs.of_update rfl (bumped.run.trans (hs.run _ _ stored)) (bumped.version ▸ asI64_range _) fun hf => ?_
    cases change with
    | unplaced queued run flag => exact absurd queued (hs.flagged _ _ stored (flag ▸ hf)).1
    | moved legal flag obeyed => rcases obeyed (flag ▸ hf) with hstate | hstate <;> simp [hstate]
    | requested active run flag =>
      rw [run]
      constructor
      all_goals
        intro hq
        rw [hq] at active
        cases active
  | claim stored bumped _ _ _ flag | bind stored bumped _ _ _ flag =>
    exact hs.of_update rfl (bumped.run.trans (hs.run _ _ stored)) (bumped.version ▸ asI64_range _)
      fun hf => absurd hf (by simp [flag])
  | submit absent run version _ uncancelled =>
    exact hs.of_update rfl run (by rw [version]; decide) fun hf => absurd hf (by simp [uncancelled])

theorem sound_steps (hs : B.Sound) (h : Steps B rs B') : B'.Sound := by
  induction h with
  | refl => exact hs
  | tail _ step ih => exact sound_step ih step

theorem keeps_steps (hs : B.Sound) (h : Steps B rs B') : B.Keeps B' := by
  induction h with
  | refl => exact .refl B
  | tail steps step ih => exact ih.trans (keeps_step (sound_steps hs steps) step)

/-! ### Attempts -/

/-- The attempts of every run are numbered from one, and the last of them is the plan the run is bound to. -/
structure Recorded (B : Book) : Prop where
  plans : ∀ a ∈ B.attempts, a.planId = a.planBinding.planId
  numbered : ∀ r, (B.attemptsOf r).map PlacementAttemptRow.attempt =
    (List.range (B.attemptsOf r).length).map fun i : Nat => (i : Int) + 1
  current : ∀ r, (B.jobs r).bind JobRow.planBinding = (B.attemptsOf r).getLast?.map PlacementAttemptRow.planBinding

theorem attemptsOf_append (B : Book) (h : a.runId = r) (r' : Uuid) :
    ({ B with attempts := B.attempts ++ [a] } : Book).attemptsOf r' =
      B.attemptsOf r' ++ if r' = r then [a] else [] := by
  unfold attemptsOf
  rw [List.filter_append]
  by_cases he : r' = r
  · subst he; simp [h]
  · simp [h, Ne.symm he, he]

theorem foldl_max_range (n : Nat) : ((List.range n).map fun i : Nat => (i : Int) + 1).foldl max 0 = n := by
  induction n with
  | zero => rfl
  | succ n ih =>
    rw [List.range_succ, List.map_append, List.foldl_append, ih]
    simp

theorem Recorded.latestAttempt (h : B.Recorded) (r : Uuid) : B.latestAttempt r = (B.attemptsOf r).length := by
  have hfold : B.latestAttempt r = ((B.attemptsOf r).map PlacementAttemptRow.attempt).foldl max 0 := by
    rw [List.foldl_map]
    rfl
  rw [hfold, h.numbered r, foldl_max_range]

/-- A write that leaves the binding alone. -/
theorem Recorded.of_update (h : B.Recorded) (stored : B.jobs r = some j)
    (binding : j'.planBinding = j.planBinding) (hjobs : B'.jobs = Function.update B.jobs r (some j'))
    (hattempts : B'.attempts = B.attempts) : B'.Recorded := by
  have same : ∀ r', B'.attemptsOf r' = B.attemptsOf r' := fun r' => by rw [attemptsOf, hattempts]; rfl
  refine ⟨hattempts ▸ h.plans, fun r' => by rw [same]; exact h.numbered r', fun r' => ?_⟩
  rw [same, ← h.current r', hjobs]
  by_cases he : r' = r
  · subst he
    rw [Function.update_self, stored, Option.bind_some, Option.bind_some, binding]
  · rw [Function.update_of_ne he]

/-- A run that is given its next plan. -/
theorem Recorded.of_next (h : B.Recorded) (next : B.Next r a) (binding : j.planBinding = some a.planBinding) :
    ({ B.setJob r j with attempts := B.attempts ++ [a] } : Book).Recorded := by
  have same : ∀ r', ({ B.setJob r j with attempts := B.attempts ++ [a] } : Book).attemptsOf r' =
      B.attemptsOf r' ++ if r' = r then [a] else [] := B.attemptsOf_append next.run
  refine ⟨?_, ?_, ?_⟩
  · intro x hx
    rcases List.mem_append.1 hx with hold | hnew
    · exact h.plans x hold
    · rw [List.mem_singleton] at hnew
      exact hnew ▸ next.plan
  · intro r'
    rw [same]
    by_cases he : r' = r
    · subst he
      have hnumber : a.attempt = (B.attemptsOf r').length + 1 := by rw [next.number, h.latestAttempt]
      simp only [if_true, List.map_append, List.map_cons, List.map_nil, h.numbered r', List.length_append,
        List.length_singleton, List.range_succ, hnumber]
    · rw [if_neg he, List.append_nil]
      exact h.numbered r'
  · intro r'
    rw [same]
    by_cases he : r' = r
    · subst he
      simp [binding]
    · rw [if_neg he, List.append_nil, ← h.current r']
      simp [Function.update_of_ne he]

theorem recorded_step (h : B.Recorded) (hstep : Step rs B B') : B'.Recorded := by
  cases hstep with
  | change stored _ _ binding | claim stored _ _ _ _ _ binding => exact h.of_update stored binding rfl rfl
  | bind _ _ _ _ _ _ next binding | submit _ _ _ _ _ next binding => exact h.of_next next binding

theorem recorded_steps (h : B.Recorded) (hsteps : Steps B rs B') : B'.Recorded := by
  induction hsteps with
  | refl => exact h
  | tail _ step ih => exact recorded_step ih step

/-- Recorded attempts stay, and a change adds one for the run it gives a plan. -/
theorem attempts_step (h : Step rs B B') :
    ∃ new : List PlacementAttemptRow, B'.attempts = B.attempts ++ new ∧ new.map PlacementAttemptRow.runId = rs := by
  cases h with
  | change | claim => exact ⟨[], (List.append_nil _).symm, rfl⟩
  | @bind _ r _ _ a _ _ _ _ _ _ next => exact ⟨[a], rfl, by rw [List.map_singleton, next.run]⟩
  | @submit _ r _ a _ _ _ _ _ next => exact ⟨[a], rfl, by rw [List.map_singleton, next.run]⟩

theorem attempts_steps (h : Steps B rs B') :
    ∃ new : List PlacementAttemptRow, B'.attempts = B.attempts ++ new ∧ new.map PlacementAttemptRow.runId = rs := by
  induction h with
  | refl => exact ⟨[], (List.append_nil _).symm, rfl⟩
  | tail _ step ih =>
    obtain ⟨new, hnew, hruns⟩ := ih
    obtain ⟨new', hnew', hruns'⟩ := attempts_step step
    exact ⟨new ++ new', by rw [hnew', hnew, List.append_assoc], by rw [List.map_append, hruns, hruns']⟩

/-- The runs that were given plans have rows. -/
theorem jobs_of_label (hs : B.Sound) (h : Steps B rs B') : ∀ r ∈ rs, ∃ j, B'.jobs r = some j := by
  induction h with
  | refl => exact fun r hmem => absurd hmem List.not_mem_nil
  | tail steps step ih =>
    intro r hmem
    rcases List.mem_append.1 hmem with hold | hnew
    · obtain ⟨j, hj⟩ := ih r hold
      obtain ⟨j', hj', -⟩ := keeps_step (sound_steps hs steps) step r j hj
      exact ⟨j', hj'⟩
    · cases step with
      | change | claim => exact absurd hnew List.not_mem_nil
      | bind | submit =>
        rw [List.mem_singleton] at hnew
        exact ⟨_, by rw [hnew, setJob_jobs, Function.update_self]⟩

/-- The changes of one transaction: no run is given two plans. -/
def Turn (B B' : Book) : Prop := ∃ rs, rs.Nodup ∧ Steps B rs B'

/-! ### Started runs -/

/-- A run that is not queued is neither dispatched nor claimed. -/
theorem unclaimed_step (h : Step rs B B') (hj : B.jobs r = some j) (hq : j.run.state ≠ .queued) :
    B'.claimed r = B.claimed r ∧ r ∉ rs := by
  cases h with
  | change => exact ⟨rfl, List.not_mem_nil⟩
  | @claim _ r' j' _ stored _ queued =>
    refine ⟨Function.update_of_ne ?_ .., List.not_mem_nil⟩
    rintro rfl
    cases stored.symm.trans hj
    exact hq queued
  | @bind _ r' j' _ _ stored _ queued =>
    refine ⟨rfl, fun hmem => ?_⟩
    rw [List.mem_singleton] at hmem
    subst hmem
    cases stored.symm.trans hj
    exact hq queued
  | @submit _ r' _ _ absent =>
    refine ⟨rfl, fun hmem => ?_⟩
    rw [List.mem_singleton] at hmem
    subst hmem
    cases absent.symm.trans hj

theorem unclaimed_steps (hs : B.Sound) (h : Steps B rs B') (hj : B.jobs r = some j)
    (hq : j.run.state ≠ .queued) : B'.claimed r = B.claimed r ∧ r ∉ rs := by
  induction h with
  | refl => exact ⟨rfl, List.not_mem_nil⟩
  | tail steps step ih =>
    obtain ⟨j', hj', hkept⟩ := keeps_steps hs steps r j hj
    obtain ⟨hclaimed, hnot⟩ := unclaimed_step step hj' (hkept.started hq)
    exact ⟨hclaimed.trans ih.1, fun hmem => (List.mem_append.1 hmem).elim ih.2 hnot⟩

/-- The attempts of a run that was given no plan. -/
theorem attemptsOf_steps (h : Steps B rs B') : ∃ new : List PlacementAttemptRow,
    B'.attemptsOf r = B.attemptsOf r ++ new ∧ new.length = rs.count r := by
  obtain ⟨new, hnew, hruns⟩ := attempts_steps h
  refine ⟨new.filter fun a => a.runId = r, ?_, ?_⟩
  · unfold attemptsOf
    rw [hnew, List.filter_append]
  · rw [← hruns, List.count, List.countP_map, List.countP_eq_length_filter]
    congr 1

end Book

end CYC
