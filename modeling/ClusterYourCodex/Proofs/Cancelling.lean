import ClusterYourCodex.Spec.Control

/-! Once a run is cancelled, the cancellation cell says so to the end, and so does what is read from it: every other
writer of the cell leaves it alone, but for the upload loop, which stores its failure without looking. A deadline that
is looked at after the cell is reported all the same. -/

namespace CYC.Control

open Machine Monitor

namespace Receipt

/-- An answer changes the cell to a cancellation or not at all. -/
theorem step_cancellation {control control' : RunControl} {receipt receipt' : Receipt}
    (h : receipt.step control = some (control', receipt')) :
    control'.cancellation = control.cancellation ∨ control'.cancellation = cancelRequested := by
  cases receipt with
  | lock version state asked =>
    simp only [step] at h
    split_ifs at h
    cases h
    exact .inl rfl
  | raise | write | publish | renew =>
    cases h
    exact .inl rfl
  | cancel =>
    cases h
    exact .inr rfl
  | done => cases h

end Receipt

theorem Heartbeat.step_cancellation {control control' : RunControl} {heartbeat heartbeat' : Heartbeat}
    (h : heartbeat.step control = some (control', heartbeat')) :
    control'.cancellation = control.cancellation ∨ control'.cancellation = cancelRequested := by
  cases heartbeat with
  | ticking | loading =>
    cases h
    exact .inl rfl
  | locking =>
    simp only [step] at h
    split_ifs at h
    cases h
    exact .inl rfl
  | reading state =>
    cases h
    exact .inl rfl
  | awaiting expectedVersion state => cases h
  | receiving receipt last =>
    simp only [step] at h
    split at h
    · cases h
      exact .inl rfl
    · obtain ⟨⟨control₁, receipt₁⟩, hstep, heq⟩ := Option.map_eq_some_iff.1 h
      cases heq
      exact Receipt.step_cancellation hstep
  | ended => cases h

/-! ### What is decided -/

/-- An upload failure, a timeout or a lost lease. -/
def replaces : TerminationReason → Bool
  | .transportFailure | .timedOut | .leaseLost => true
  | _ => false

/-- The reason a process will be reported with, once that is known. -/
def Child.verdict (child : Child) : Option TerminationReason :=
  if child.uploadError then some .transportFailure
  else match child.poll with
    | .decided reason => some (protocolTermination reason)
    | _ => none

def Request.reason : Request → Option TerminationReason
  | .state _ => none
  | .completion _ reason _ => some reason

def Next.reason : Next → Option TerminationReason
  | .retry request _ _ => request.reason
  | _ => none

namespace Work

/-- The reason that is decided. While the source is prepared none is: the cell is loaded after that. -/
def verdict : Work → Option TerminationReason
  | .running _ child => child.verdict
  | .loading request _ | .awaiting request _ _ => request.reason
  | .receiving _ next => next.reason
  | .blaming reason => some reason
  | _ => none

/-- No upload failure, timeout or lost lease is about to be reported. -/
def Clear (work : Work) : Prop := work.verdict.any replaces = false

/-- The steps between their check and their start. -/
def passed : Work → Nat
  | .measuring _ | .spawning _ => 1
  | _ => 0

/-- The events after which a cancelled run can be reported as something else: a failed log upload, and a deadline that
is found to have passed after the cell was looked at. -/
def replacedBy (work : Work) : WorkEvent → Bool
  | .uploadFails => true
  | .measure zero => zero
  | .poll (.test expired) =>
    match work with
    | .running _ _ => expired
    | _ => false
  | _ => false

variable {work work' : Work} {git : Bool} {steps : Nat} {control control' : RunControl} {event : WorkEvent}

theorem passed_le (work : Work) : work.passed ≤ 1 := by
  cases work <;> simp [passed]

theorem report_clear (h : work.Clear) {final : JobState} {reason : TerminationReason} (hreport : work.report = some (final, reason)) :
    replaces reason = false := by
  cases work with
  | awaiting request attempt expectedVersion =>
    cases request with
    | state next => cases hreport
    | completion final₁ reason₁ terminated =>
      cases hreport
      simpa [Clear, verdict, Request.reason] using h
  | _ => cases hreport

theorem complete_clear {reason : TerminationReason} (h : replaces reason = false) : (complete reason).Clear := by
  simpa [Clear, complete, verdict, Request.reason] using h

theorem sourceFailure_requested (git : Bool) (reason : Option ProcessTerminationReason) :
    replaces (sourceFailure git cancelRequested reason) = false := by
  cases git <;> rfl

theorem goOn_clear {next : Next} (h : (Work.receiving .done next).Clear) : (goOn next).Clear ∧ (goOn next).passed = 0 := by
  cases next with
  | finish request =>
    cases request with
    | state next => cases next <;> exact ⟨rfl, rfl⟩
    | completion final reason terminated => exact ⟨rfl, rfl⟩
  | retry request attempt expectedVersion => cases expectedVersion <;> exact ⟨h, rfl⟩
  | fail => exact ⟨rfl, rfl⟩

/-- The cell is loaded in a cancelled run. -/
theorem proceed_kept (hcell : control.cancellation = cancelRequested) (h : work.Clear)
    (hstep : work.proceed git steps control = some (control', work')) :
    control'.cancellation = cancelRequested ∧ work'.Clear ∧ work'.passed ≤ work.passed := by
  cases work with
  | sourceFailed reason =>
    cases hstep
    exact ⟨hcell, complete_clear (hcell ▸ sourceFailure_requested git reason), le_rfl⟩
  | loading request attempt =>
    cases hstep
    exact ⟨hcell, h, le_rfl⟩
  | receiving receipt next =>
    simp only [proceed] at hstep
    split_ifs at hstep
    · cases hstep
      obtain ⟨hclear, hpassed⟩ := goOn_clear h
      exact ⟨hcell, hclear, hpassed.le⟩
    · obtain ⟨⟨control₁, receipt₁⟩, hreceipt, heq⟩ := Option.map_eq_some_iff.1 hstep
      cases heq
      exact ⟨(Receipt.step_cancellation hreceipt).elim (fun hsame => hsame.trans hcell) id, h, le_rfl⟩
  | checking index =>
    have hset : control.cancellation ≠ cancelNone := by
      rw [hcell]
      decide
    simp only [proceed, if_pos hset] at hstep
    cases hstep
    refine ⟨hcell, ?_, ?_⟩ <;> (split <;> rfl)
  | stopping =>
    cases hstep
    exact ⟨hcell, complete_clear (by rw [hcell]; rfl), le_rfl⟩
  | uploading artifacts =>
    cases artifacts with
    | zero =>
      cases hstep
      exact ⟨hcell, rfl, le_rfl⟩
    | succ artifacts => cases hstep
  | unverified =>
    cases hstep
    refine ⟨hcell, ?_, le_rfl⟩
    rw [hcell]
    rfl
  | blaming reason =>
    cases hstep
    exact ⟨hcell, h, le_rfl⟩
  | _ => cases hstep

theorem replied_clear {reply : UpdateReply} (h : work.Clear) (hstep : work.replied reply = some work') :
    work'.Clear ∧ work'.passed = 0 := by
  cases work with
  | awaiting request attempt expectedVersion =>
    cases reply with
    | ok sameRun runState stateVersion asked =>
      simp only [replied] at hstep
      split_ifs at hstep <;> (cases hstep; exact ⟨rfl, rfl⟩)
    | conflict conflict =>
      cases hstep
      refine ⟨?_, rfl⟩
      -- A completion that is sent again keeps its reason, or says that the run was cancelled.
      cases request with
      | state next =>
        simp only [Request.afterConflict, Next.again]
        split_ifs <;> rfl
      | completion final reason terminated =>
        simp only [Request.afterConflict, Next.again]
        split_ifs <;> first | rfl | exact h
    | failed retryable =>
      simp only [replied] at hstep
      split_ifs at hstep
      · cases request <;> (cases hstep; exact ⟨h, rfl⟩)
      · cases hstep
        exact ⟨rfl, rfl⟩
  | _ => cases hstep

/-- A process that is not reported with an upload failure or a timeout. -/
theorem finished_clear {clean : Bool} (h : work.Clear) (hstep : work.finished clean = some work') :
    work'.Clear ∧ work'.passed = 0 := by
  cases work with
  | fetching child =>
    obtain ⟨reason, -, rfl⟩ := Option.map_eq_some_iff.1 hstep
    split_ifs <;> exact ⟨rfl, rfl⟩
  | running index child =>
    obtain ⟨reason, hreason, rfl⟩ := Option.map_eq_some_iff.1 hstep
    split_ifs
    · exact ⟨rfl, rfl⟩
    · refine ⟨complete_clear ?_, rfl⟩
      obtain ⟨poll, uploadError⟩ := child
      cases poll with
      | decided reason₁ =>
        cases uploadError with
        | true => cases h
        | false =>
          cases hreason
          cases reason₁ <;> first | rfl | cases h
      | _ => cases hreason
  | _ => cases hstep

theorem spawned_clear {ok : Bool} (hstep : work.spawned git ok = some work') :
    work'.Clear ∧ work'.passed + work.starts (.spawn ok) ≤ work.passed := by
  cases work with
  | preparing =>
    simp only [spawned] at hstep
    split_ifs at hstep <;> (cases hstep; exact ⟨rfl, le_rfl⟩)
  | spawning index =>
    cases hstep
    cases ok with
    | true => exact ⟨rfl, le_rfl⟩
    | false => exact ⟨rfl, Nat.zero_le _⟩
  | _ => cases hstep

theorem starts_of_ne (h : ∀ ok, event ≠ .spawn ok) : work.starts event = 0 := by
  unfold starts
  split
  · exact absurd rfl (h true)
  · rfl

/-- The monitor of a step polls in a cancelled run. -/
theorem polled_clear {child child' : Child} {poll : PollEvent} {index : Nat} (h : (Work.running index child).Clear)
    (hpoll : (Work.running index child).replacedBy (.poll poll) = false)
    (hstep : child.step cancelRequested poll = some child') : (Work.running index child').Clear := by
  obtain ⟨at_, uploadError⟩ := child
  cases uploadError with
  | true => cases h
  | false =>
    cases poll with
    | wait exited =>
      cases at_ <;> cases hstep
      cases exited <;> rfl
    | load =>
      cases at_ <;> cases hstep
      rfl
    | test expired =>
      cases at_ <;> cases hstep
      cases expired with
      | true => cases hpoll
      | false => rfl

theorem step_kept (hcell : control.cancellation = cancelRequested) (h : work.Clear) (hevent : work.replacedBy event = false)
    (hstep : work.step git steps control event = some (control', work')) :
    control'.cancellation = cancelRequested ∧ work'.Clear ∧ work'.passed + work.starts event ≤ work.passed := by
  cases event with
  | proceed =>
    rw [starts_of_ne (by simp)]
    exact proceed_kept hcell h hstep
  | reply reply =>
    obtain ⟨work₁, hwork, heq⟩ := Option.map_eq_some_iff.1 hstep
    cases heq
    obtain ⟨hclear, hpassed⟩ := replied_clear h hwork
    rw [starts_of_ne (by simp), hpassed]
    exact ⟨hcell, hclear, Nat.zero_le _⟩
  | prepared ok =>
    cases work <;> cases hstep
    cases ok <;> exact ⟨hcell, rfl, le_rfl⟩
  | spawn ok =>
    obtain ⟨work₁, hwork, heq⟩ := Option.map_eq_some_iff.1 hstep
    cases heq
    exact ⟨hcell, spawned_clear hwork⟩
  | poll poll =>
    obtain ⟨⟨child, put⟩, hchild, hpoll⟩ := Option.bind_eq_some_iff.1 hstep
    obtain ⟨child', hchild', heq⟩ := Option.map_eq_some_iff.1 hpoll
    rw [hcell] at hchild'
    cases work with
    | fetching child₁ =>
      cases hchild
      cases heq
      exact ⟨hcell, rfl, le_rfl⟩
    | running index child₁ =>
      cases hchild
      cases heq
      exact ⟨hcell, polled_clear h hevent hchild', le_rfl⟩
    | _ => cases hchild
  | uploadFails => cases work <;> cases hevent
  | finish clean =>
    obtain ⟨work₁, hwork, heq⟩ := Option.map_eq_some_iff.1 hstep
    cases heq
    obtain ⟨hclear, hpassed⟩ := finished_clear h hwork
    rw [starts_of_ne (by simp), hpassed]
    exact ⟨hcell, hclear, Nat.zero_le _⟩
  | lose => cases work <;> cases hstep <;> exact ⟨hcell, rfl, Nat.zero_le _⟩
  | measure zero =>
    cases work <;> cases hstep
    cases zero with
    | true => cases hevent
    | false => exact ⟨hcell, rfl, le_rfl⟩
  | collect artifacts =>
    cases work <;> cases hstep
    cases artifacts <;> exact ⟨hcell, rfl, le_rfl⟩
  | upload ok =>
    cases work with
    | uploading artifacts =>
      cases artifacts with
      | zero => cases hstep
      | succ artifacts =>
        cases hstep
        refine ⟨hcell, ?_, ?_⟩ <;> (split_ifs <;> rfl)
    | _ => cases hstep

theorem replacedBy_cases (h : work.replacedBy event = true) : event = .uploadFails ∨ event = .measure true ∨
    ∃ index child, work = .running index child ∧ event = .poll (.test true) := by
  cases event with
  | uploadFails => exact .inl rfl
  | measure zero => exact .inr (.inl (congrArg WorkEvent.measure h))
  | poll event =>
    cases event with
    | test expired =>
      cases work with
      | running index child => exact .inr (.inr ⟨index, child, rfl, by rw [show expired = true from h]⟩)
      | _ => cases h
    | _ => cases h
  | _ => cases h

theorem step_measured (hstep : work.step git steps control (.measure true) = some (control', work')) :
    control' = control ∧ work' = complete .timedOut := by
  cases work <;> cases hstep
  exact ⟨rfl, rfl⟩

theorem step_expired {index : Nat} {child : Child} (h : (Work.running index child).Clear)
    (hstep : (Work.running index child).step git steps control (.poll (.test true)) = some (control', work')) :
    control' = control ∧ work' = .running index ⟨.decided .timedOut, false⟩ := by
  obtain ⟨at_, uploadError⟩ := child
  cases uploadError with
  | true => cases h
  | false =>
    cases at_ <;> cases hstep
    exact ⟨rfl, rfl⟩

end Work

namespace Worker

/-- The run is cancelled. -/
def Cancelled (w : Worker) : Prop := w.control.cancellation = cancelRequested

def replacedBy (w : Worker) : Action → Bool
  | .work event => w.work.replacedBy event
  | _ => false

/-- In a cancelled run, no log upload fails, and no deadline has passed that is looked at after the cell. -/
def Spared (w : Worker) (action : Action) : Prop := w.Cancelled → w.replacedBy action = false

variable {w w' : Worker} {action : Action}

theorem exchange_cancelled (h : w.Cancelled) (reason : UInt8) : (w.exchange reason).cancellation = cancelRequested := by
  have hset : w.control.cancellation ≠ cancelNone := by
    rw [show w.control.cancellation = cancelRequested from h]
    decide
  exact (if_neg hset).trans h

/-- The steps that were let through, the one between its check and its start as well. -/
def admitted (w : Worker) : Nat := w.started + w.work.passed

/-- What an action does to a cancelled run. -/
theorem cancelled_step (h : w.Cancelled) (hclear : w.work.Clear) (haction : w.replacedBy action = false)
    (hstep : w.step action = some w') : w'.Cancelled ∧ w'.work.Clear ∧ w'.admitted ≤ w.admitted := by
  cases action with
  | shutdown =>
    cases hstep
    exact ⟨rfl, hclear, le_rfl⟩
  | watchLease now =>
    have hset : w.control.cancellation ≠ cancelNone := by
      rw [show w.control.cancellation = cancelRequested from h]
      decide
    simp only [step] at hstep
    split at hstep
    · rw [if_pos hset] at hstep
      cases hstep
      exact ⟨h, hclear, le_rfl⟩
    · cases hstep
  | loseLease =>
    simp only [step] at hstep
    split at hstep
    · cases hstep
      exact ⟨exchange_cancelled h _, hclear, le_rfl⟩
    · cases hstep
  | timeOut =>
    simp only [step] at hstep
    split_ifs at hstep
    cases hstep
    exact ⟨exchange_cancelled h _, hclear, le_rfl⟩
  | heartbeat =>
    obtain ⟨⟨control, heartbeat⟩, hheartbeat, rfl⟩ := Option.map_eq_some_iff.1 hstep
    have hcell : control.cancellation = cancelRequested :=
      (Heartbeat.step_cancellation hheartbeat).elim (fun hsame => hsame.trans h) id
    exact ⟨hcell, hclear, le_rfl⟩
  | heartbeatReply reply =>
    obtain ⟨heartbeat, -, rfl⟩ := Option.map_eq_some_iff.1 hstep
    exact ⟨h, hclear, le_rfl⟩
  | work event =>
    obtain ⟨⟨control, work⟩, hwork, rfl⟩ := Option.map_eq_some_iff.1 hstep
    obtain ⟨hcell, hclear', hpassed⟩ := Work.step_kept h hclear haction hwork
    refine ⟨hcell, hclear', ?_⟩
    simp only [admitted]
    omega

/-- After an event that is not spared the cell no longer holds the cancellation, or a run without a further such event
reports the timeout. -/
theorem step_replaced (h : w.work.Clear) (haction : w.replacedBy action = true) (hstep : w.step action = some w') :
    ¬w'.Cancelled ∨ ∃ actions w₁, Along step Spared w' actions ∧ run step w' actions = some w₁ ∧
      w₁.work.report = some (.failed, .timedOut) := by
  cases action with
  | work event =>
    obtain ⟨⟨control, work⟩, hwork, rfl⟩ := Option.map_eq_some_iff.1 hstep
    obtain rfl | rfl | ⟨index, child, hrunning, rfl⟩ := Work.replacedBy_cases haction
    · obtain ⟨⟨child, put⟩, -, hchild⟩ := Option.bind_eq_some_iff.1 hwork
      split_ifs at hchild
      cases hchild
      have hreplaced : cancelTransportFailure ≠ cancelRequested := by decide
      exact .inl hreplaced
    · obtain ⟨rfl, rfl⟩ := Work.step_measured hwork
      exact .inr ⟨[.work .proceed], _, ⟨fun _ => rfl, fun _ _ => trivial⟩, rfl, rfl⟩
    · rw [hrunning] at h hwork
      obtain ⟨rfl, rfl⟩ := Work.step_expired h hwork
      refine .inr ⟨[.work (.finish true), .work .proceed], _, ⟨fun _ => rfl, fun w₁ hw₁ => ?_⟩, rfl, rfl⟩
      cases hw₁
      exact ⟨fun _ => rfl, fun _ _ => trivial⟩
  | _ => cases haction

end Worker

/-- From a cancellation on, as long as no log upload fails and no deadline has passed that is looked at after the cell:
the cell holds the cancellation, no completion reports an upload failure, a timeout or a lost lease unless that was
decided before, and no check lets another step through, so that none is started but one whose check came before. Each
other event of a cancelled run ends the cancellation or lets the timeout be reported. -/
theorem cancellation_sticks (w : Worker) (h : w.Cancelled) (hclear : w.work.Clear) :
    (∀ actions w', Along Worker.step Worker.Spared w actions → run Worker.step w actions = some w' →
      w'.Cancelled ∧ (∀ final reason, w'.work.report = some (final, reason) → replaces reason = false) ∧
        (w.work.passed = 0 → w'.started ≤ w.started) ∧ w'.started ≤ w.started + 1) ∧
    ∀ action w', w.replacedBy action = true → w.step action = some w' →
      ¬w'.Cancelled ∨ ∃ actions w₁, Along Worker.step Worker.Spared w' actions ∧
        run Worker.step w' actions = some w₁ ∧ w₁.work.report = some (.failed, .timedOut) := by
  refine ⟨?_, fun action w' => Worker.step_replaced hclear⟩
  intro actions w' halong hrun
  have hkept : w'.Cancelled ∧ w'.work.Clear ∧ w'.admitted ≤ w.admitted := by
    refine invariant_along (fun w₁ => w₁.Cancelled ∧ w₁.work.Clear ∧ w₁.admitted ≤ w.admitted) ?_ ⟨h, hclear, le_rfl⟩
      halong hrun
    rintro w₁ action w₂ ⟨hw₁, hclear₁, hadmitted₁⟩ hspared hstep
    obtain ⟨hw₂, hclear₂, hadmitted₂⟩ := Worker.cancelled_step hw₁ hclear₁ (hspared hw₁) hstep
    exact ⟨hw₂, hclear₂, hadmitted₂.trans hadmitted₁⟩
  obtain ⟨hcancelled, hclear', hadmitted⟩ := hkept
  simp only [Worker.admitted] at hadmitted
  have hpassed := w.work.passed_le
  exact ⟨hcancelled, fun final reason => Work.report_clear hclear', by omega, by omega⟩

/-- A job of two steps is prepared and its first step started; the daemon shuts down after the monitor found it alive. -/
def untilShutdown : List Action :=
  [.work (.prepared true), .work .proceed, .work (.reply (.ok true .running 2 false))] ++
    List.replicate 5 (.work .proceed) ++
    [.work (.measure false), .work (.spawn true), .work (.poll (.wait false)), .shutdown]

def shutDown : Worker where
  git := true
  steps := 2
  control := ⟨2, 8, .running, false, cancelRequested⟩
  heartbeat := .ticking
  work := .running 0 ⟨.loading, false⟩
  leaseWatch := .watching
  timeoutPending := true
  started := 1

example : run Worker.step (.start true 2 1 8) untilShutdown = some shutDown := by decide

/-- The lease and the time run out, and the monitor looks at the cell. -/
def afterShutdown : List Action :=
  [.watchLease 8, .timeOut, .heartbeat, .heartbeat, .work (.poll .load), .work (.finish false), .work .proceed]

theorem cancellation_sticks_afterShutdown : (∃ w', run Worker.step shutDown afterShutdown = some w' ∧ w'.Cancelled ∧
    w'.work.report = some (.cancelled, .cancelRequested) ∧ replaces .cancelRequested = false ∧ w'.started ≤ 1) ∧
    ∃ w', shutDown.step (.work .uploadFails) = some w' ∧ (¬w'.Cancelled ∨ ∃ actions w₁,
      Along Worker.step Worker.Spared w' actions ∧ run Worker.step w' actions = some w₁ ∧
        w₁.work.report = some (.failed, .timedOut)) := by
  obtain ⟨hkept, hreplaced⟩ := cancellation_sticks shutDown rfl rfl
  have hsticks := hkept afterShutdown _ (by simp [afterShutdown, Along, Worker.Spared, Worker.replacedBy, Work.replacedBy]) rfl
  exact ⟨⟨_, rfl, hsticks.1, rfl, hsticks.2.1 _ _ rfl, hsticks.2.2.1 rfl⟩, _, rfl, hreplaced (.work .uploadFails) _ rfl rfl⟩

/-- A log upload fails after the shutdown. -/
theorem upload_failure_replaces_cancellation : run Worker.step (.start true 2 1 8) untilShutdown = some shutDown ∧
    shutDown.Cancelled ∧ shutDown.work.Clear ∧
    ∃ w', run Worker.step shutDown [.work .uploadFails, .work (.poll .load), .work (.finish false), .work .proceed] =
      some w' ∧ ¬w'.Cancelled ∧ w'.work.report = some (.failed, .transportFailure) := by
  refine ⟨by decide, rfl, rfl, _, rfl, ?_, rfl⟩
  have hreplaced : cancelTransportFailure ≠ cancelRequested := by decide
  exact hreplaced

end CYC.Control
