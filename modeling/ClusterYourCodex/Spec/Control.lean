import ClusterYourCodex.Lib.Machine
import ClusterYourCodex.Spec.Monitor
import ClusterYourCodex.Spec.Worker

/-! The tasks that share the control of a run on a worker: the heartbeat loop, the task that executes the assignment
(its state updates, its processes with their monitors and log uploads, its artifacts and its completion), the two
watchdogs and the daemon's shutdown. Each access to the version, the state behind its lock, the lease deadline or the
cancellation cell is an action of its own. -/

namespace CYC.Control

open Monitor

structure RunControl where
  version : Nat
  leaseUntil : Int
  state : JobState
  /-- Whether a task holds the lock of the state. -/
  locked : Bool
  cancellation : UInt8
  deriving DecidableEq

structure VersionConflict where
  currentVersion : Nat
  cancelRequested : Bool
  currentState : Option JobState
  deriving DecidableEq

/-! ### What the cell means -/

/-- What `execute_steps` reports if it finds the cell set. -/
def cancellationTermination (cell : UInt8) : TerminationReason :=
  if cell = cancelRequested then .cancelRequested
  else if cell = cancelLeaseLost then .leaseLost
  else if cell = cancelTransportFailure then .transportFailure
  else if cell = cancelJobTimeout then .timedOut
  else .cancelRequested

/-- What a completion after a failed preparation or artifact upload reports. -/
def cancellationTerminationReason (cell : UInt8) : Option TerminationReason :=
  if cell = cancelRequested then some .cancelRequested
  else if cell = cancelLeaseLost then some .leaseLost
  else if cell = cancelTransportFailure then some .transportFailure
  else if cell = cancelJobTimeout then some .timedOut
  else none

def cancellationFinalState (cell : UInt8) : JobState :=
  if cell = cancelRequested || cell = cancelLeaseLost then .cancelled else .failed

def protocolTermination : ProcessTerminationReason → TerminationReason
  | .exited => .exited
  | .executionFailed => .executionFailed
  | .timedOut => .timedOut
  | .cancelRequested => .cancelRequested
  | .leaseLost => .leaseLost
  | .transportFailure => .transportFailure

/-! ### What an answer does to the control -/

/-- What is left to do with an answer of the controller. -/
inductive Receipt where
  | lock (version : Nat) (state : JobState) (asked : Bool)
  | raise (version : Nat) (state : JobState) (asked : Bool)
  | write (state : Option JobState) (asked : Bool)
  | publish (version : Nat) (leaseUntil : Option Int) (asked : Bool)
  | renew (leaseUntil : Int) (asked : Bool)
  | cancel
  | done
  deriving DecidableEq

namespace Receipt

def cancelIf (asked : Bool) : Receipt := if asked then .cancel else .done

def applyStateVersion (version : Nat) (state : JobState) (asked : Bool) : Receipt := .lock version state asked

def applyVersionConflict (conflict : VersionConflict) : Receipt :=
  match conflict.currentState with
  | some state => applyStateVersion conflict.currentVersion state conflict.cancelRequested
  | none => .publish conflict.currentVersion none conflict.cancelRequested

def step (control : RunControl) : Receipt → Option (RunControl × Receipt)
  | .lock version state asked =>
    if control.locked then none else some ({ control with locked := true }, .raise version state asked)
  | .raise version state asked =>
    some ({ control with version := max control.version version },
      .write (if control.version ≤ version then some state else none) asked)
  | .write state asked =>
    some ({ control with state := state.getD control.state, locked := false }, cancelIf asked)
  | .publish version leaseUntil asked =>
    some ({ control with version := max control.version version },
      match leaseUntil with
      | some leaseUntil => .renew leaseUntil asked
      | none => cancelIf asked)
  | .renew leaseUntil asked =>
    some ({ control with leaseUntil := max control.leaseUntil leaseUntil }, cancelIf asked)
  | .cancel => some ({ control with cancellation := cancelRequested }, .done)
  | .done => none

end Receipt

/-! ### The heartbeat loop -/

inductive HeartbeatReply where
  | ok (currentVersion : Nat) (leaseUntil : Int) (cancelRequested : Bool)
  | conflict (conflict : VersionConflict)
  | failed
  deriving DecidableEq

inductive Heartbeat where
  | ticking
  | loading
  | locking
  | reading (state : JobState)
  | awaiting (expectedVersion : Nat) (state : JobState)
  | receiving (receipt : Receipt) (last : Bool)
  | ended
  deriving DecidableEq

namespace Heartbeat

def step (control : RunControl) : Heartbeat → Option (RunControl × Heartbeat)
  | .ticking => some (control, .loading)
  | .loading => some (control, if control.cancellation ≠ cancelNone then .ended else .locking)
  | .locking => if control.locked then none else some (control, .reading control.state)
  | .reading state => some (control, .awaiting control.version state)
  | .awaiting _ _ => none
  | .receiving receipt last =>
    if receipt = .done then some (control, if last then .ended else .ticking)
    else (receipt.step control).map fun r => (r.1, .receiving r.2 last)
  | .ended => none

def reply (reply : HeartbeatReply) : Heartbeat → Option Heartbeat
  | .awaiting expectedVersion _ =>
    match reply with
    | .ok currentVersion leaseUntil cancel =>
      if currentVersion < expectedVersion then some .ticking
      else some (.receiving (.publish currentVersion (some leaseUntil) cancel) cancel)
    | .conflict conflict => some (.receiving (.applyVersionConflict conflict) conflict.cancelRequested)
    | .failed => some .ticking
  | _ => none

end Heartbeat

/-! ### State updates -/

/-- A `transition`, or a `submit_completion` with the reason and what its evidence says about the process tree. -/
inductive Request where
  | state (next : JobState)
  | completion (final : JobState) (reason : TerminationReason) (processTreeTerminated : Bool)
  deriving DecidableEq

def Request.target : Request → JobState
  | .state next => next
  | .completion final _ _ => final

inductive UpdateReply where
  | ok (sameRun : Bool) (runState : JobState) (stateVersion : Nat) (cancelRequested : Bool)
  | conflict (conflict : VersionConflict)
  | failed (retryable : Bool)
  deriving DecidableEq

/-- How the call goes on. -/
inductive Next where
  | finish (request : Request)
  | retry (request : Request) (attempt : Nat) (expectedVersion : Option Nat)
  | fail
  deriving DecidableEq

/-- Three attempts are made. -/
def Next.again (request : Request) (attempt : Nat) (expectedVersion : Option Nat) : Next :=
  if attempt + 1 < 3 then .retry request (attempt + 1) expectedVersion else .fail

def Request.afterConflict (request : Request) (attempt : Nat) (conflict : VersionConflict) : Next :=
  match request with
  | .state next =>
    if conflict.cancelRequested then .finish request
    else if conflict.currentState = some next then .finish request
    else if conflict.currentState.any JobState.isTerminal then .fail
    else .again request attempt none
  | .completion final _ terminated =>
    if conflict.currentState.any JobState.isTerminal then .fail
    else if conflict.cancelRequested && final ≠ .cancelled then
      if terminated then
        .again (.completion .cancelled .cancelRequested terminated) attempt (some conflict.currentVersion)
      else .fail
    else .again request attempt (some conflict.currentVersion)

/-! ### Processes -/

/-- Where `monitor_child` stands: before `try_wait`, before its load of the cell, between a load that gave no reason
and the test of the deadline, or with a reason. -/
inductive Poll where
  | waiting
  | loading
  | testing
  | decided (reason : ProcessTerminationReason)
  deriving DecidableEq

/-- A process, with whether an upload of its log has failed. -/
structure Child where
  poll : Poll
  uploadError : Bool
  deriving DecidableEq

inductive PollEvent where
  | wait (exited : Bool)
  | load
  | test (expired : Bool)
  deriving DecidableEq

namespace Child

def start : Child := ⟨.waiting, false⟩

def step (cell : UInt8) (event : PollEvent) (child : Child) : Option Child :=
  match event, child.poll with
  | .wait exited, .waiting => some { child with poll := if exited then .decided .exited else .loading }
  | .load, .loading =>
    some { child with poll := match interruption cell with
      | some reason => .decided reason
      | none => .testing }
  | .test expired, .testing => some { child with poll := if expired then .decided .timedOut else .waiting }
  | _, _ => none

/-- The reason of the `ProcessResult`. -/
def reason (child : Child) : Option ProcessTerminationReason :=
  match child.poll with
  | .decided reason => some (if child.uploadError then .transportFailure else reason)
  | _ => none

end Child

/-! ### The assignment -/

/-- Where `execute_assignment` stands. Steps are counted from zero. -/
inductive Work where
  | preparing
  | fetching (child : Child)
  /-- `source_failure_termination` is about to load the cell. -/
  | sourceFailed (reason : Option ProcessTerminationReason)
  | loading (request : Request) (attempt : Nat)
  | awaiting (request : Request) (attempt : Nat) (expectedVersion : Nat)
  | receiving (receipt : Receipt) (next : Next)
  | checking (index : Nat)
  /-- A check found the cell set, and `cancellation_termination` is about to load it again. -/
  | stopping
  | measuring (index : Nat)
  | spawning (index : Nat)
  | running (index : Nat) (child : Child)
  | verifying
  | uploading (artifacts : Nat)
  | unverified
  /-- `cancellation_final_state` is about to load the cell, after the load that gave the reason. -/
  | blaming (reason : TerminationReason)
  | ended
  deriving DecidableEq

/-- What the task does next where that depends on more than the control. -/
inductive WorkEvent where
  | proceed
  | reply (reply : UpdateReply)
  /-- The source is prepared, or its preparation fails without a process. -/
  | prepared (ok : Bool)
  | spawn (ok : Bool)
  | poll (event : PollEvent)
  | uploadFails
  /-- The process is done; `clean` is an exit code of zero without a forced kill. -/
  | finish (clean : Bool)
  /-- The process tree is not known to be empty. -/
  | lose
  /-- The time left to the job is looked at. -/
  | measure (zero : Bool)
  | collect (artifacts : Option Nat)
  | upload (ok : Bool)
  deriving DecidableEq

namespace Work

/-- A completion with the final state of an outcome that did not succeed. -/
def complete (reason : TerminationReason) : Work :=
  .loading (.completion (if reason = .cancelRequested || reason = .leaseLost then .cancelled else .failed) reason true) 0

/-- `source_failure_termination`. -/
def sourceFailure (git : Bool) (cell : UInt8) (reason : Option ProcessTerminationReason) : TerminationReason :=
  let processReason := reason.map fun reason =>
    if reason = .exited || reason = .executionFailed then .sourcePreparationFailed else protocolTermination reason
  if git then ((cancellationTerminationReason cell).or processReason).getD .sourcePreparationFailed
  else .sourcePreparationFailed

/-- The termination of `execute_steps` after a process that did not succeed. -/
def stepFailure (reason : ProcessTerminationReason) : TerminationReason :=
  if reason = .exited then .executionFailed else protocolTermination reason

/-- The next attempt: a transition loads the version again, a completion has its own. -/
def goOn : Next → Work
  | .finish (.state .running) => .checking 0
  | .finish (.state .verifying) => .verifying
  | .finish _ => .ended
  | .retry request attempt none => .loading request attempt
  | .retry request attempt (some expectedVersion) => .awaiting request attempt expectedVersion
  | .fail => .ended

def proceed (git : Bool) (steps : Nat) (control : RunControl) : Work → Option (RunControl × Work)
  | .sourceFailed reason => some (control, complete (sourceFailure git control.cancellation reason))
  | .loading request attempt => some (control, .awaiting request attempt control.version)
  | .receiving receipt next =>
    if receipt = .done then some (control, goOn next)
    else (receipt.step control).map fun r => (r.1, .receiving r.2 next)
  | .checking index =>
    some (control,
      if steps ≤ index then .loading (.state .verifying) 0
      else if control.cancellation ≠ cancelNone then .stopping
      else .measuring index)
  | .stopping => some (control, complete (cancellationTermination control.cancellation))
  | .uploading 0 => some (control, .loading (.completion .succeeded .exited true) 0)
  | .unverified =>
    some (control, .blaming ((cancellationTerminationReason control.cancellation).getD .artifactVerificationFailed))
  | .blaming reason => some (control, .loading (.completion (cancellationFinalState control.cancellation) reason true) 0)
  | _ => none

def replied (reply : UpdateReply) : Work → Option Work
  | .awaiting request attempt expectedVersion =>
    match reply with
    | .ok sameRun runState stateVersion cancel =>
      if !sameRun || runState ≠ request.target then some .ended
      else if stateVersion < expectedVersion then some .ended
      else some (.receiving (.applyStateVersion stateVersion request.target cancel) (.finish request))
    | .conflict conflict =>
      some (.receiving (.applyVersionConflict conflict) (request.afterConflict attempt conflict))
    | .failed retryable =>
      if retryable && attempt < 2 then
        match request with
        | .state _ => some (.loading request (attempt + 1))
        | .completion _ _ _ => some (.awaiting request (attempt + 1) expectedVersion)
      else some .ended
  | _ => none

/-- What comes after a process. -/
def finished (clean : Bool) : Work → Option Work
  | .fetching child =>
    child.reason.map fun reason => if reason = .exited && clean then .preparing else .sourceFailed (some reason)
  | .running index child =>
    child.reason.map fun reason =>
      if reason = .exited && clean then .checking (index + 1) else complete (stepFailure reason)
  | _ => none

def spawned (git ok : Bool) : Work → Option Work
  | .preparing => if git then some (if ok then .fetching .start else .sourceFailed none) else none
  | .spawning index => some (if ok then .running index .start else complete .executionFailed)
  | _ => none

/-- The process that runs, and the task with that process replaced. -/
def child : Work → Option (Child × (Child → Work))
  | .fetching child => some (child, .fetching)
  | .running index child => some (child, .running index)
  | _ => none

def step (git : Bool) (steps : Nat) (control : RunControl) (work : Work) : WorkEvent → Option (RunControl × Work)
  | .proceed => work.proceed git steps control
  | .reply reply => (work.replied reply).map (control, ·)
  | .prepared ok =>
    match work with
    | .preparing => some (control, if ok then .loading (.state .running) 0 else .sourceFailed none)
    | _ => none
  | .spawn ok => (work.spawned git ok).map (control, ·)
  | .poll event =>
    work.child.bind fun r => (r.1.step control.cancellation event).map fun child => (control, r.2 child)
  | .uploadFails =>
    work.child.bind fun r =>
      if r.1.uploadError then none
      else some ({ control with cancellation := cancelTransportFailure }, r.2 { r.1 with uploadError := true })
  | .finish clean => (work.finished clean).map (control, ·)
  | .lose =>
    match work with
    | .fetching _ | .spawning _ | .running _ _ => some (control, .ended)
    | _ => none
  | .measure zero =>
    match work with
    | .measuring index => some (control, if zero then complete .timedOut else .spawning index)
    | _ => none
  | .collect artifacts =>
    match work with
    | .verifying => some (control, artifacts.elim .unverified .uploading)
    | _ => none
  | .upload ok =>
    match work with
    | .uploading (artifacts + 1) =>
      some (control, if control.cancellation ≠ cancelNone || !ok then .unverified else .uploading artifacts)
    | _ => none

/-- The number of steps that an event starts. -/
def starts (work : Work) (event : WorkEvent) : Nat :=
  match work, event with
  | .spawning _, .spawn true => 1
  | _, _ => 0

/-- The completion that is being submitted. -/
def report : Work → Option (JobState × TerminationReason)
  | .awaiting (.completion final reason _) _ _ => some (final, reason)
  | _ => none

end Work

/-! ### All tasks -/

inductive Watch where
  | watching
  | losing
  | ended
  deriving DecidableEq

structure Worker where
  /-- Whether the source is a Git repository, and the number of steps of the job. -/
  git : Bool
  steps : Nat
  control : RunControl
  heartbeat : Heartbeat
  work : Work
  leaseWatch : Watch
  timeoutPending : Bool
  /-- The number of steps started. -/
  started : Nat
  deriving DecidableEq

inductive Action where
  | shutdown
  | watchLease (now : Int)
  | loseLease
  | timeOut
  | heartbeat
  | heartbeatReply (reply : HeartbeatReply)
  | work (event : WorkEvent)
  deriving DecidableEq

namespace Worker

def start (git : Bool) (steps stateVersion : Nat) (leaseUntil : Int) : Worker where
  git := git
  steps := steps
  control := ⟨stateVersion, leaseUntil, .preparing, false, cancelNone⟩
  heartbeat := .ticking
  work := .preparing
  leaseWatch := .watching
  timeoutPending := true
  started := 0

/-- `compare_exchange` from `CANCEL_NONE`. -/
def exchange (w : Worker) (reason : UInt8) : RunControl :=
  { w.control with cancellation := if w.control.cancellation = cancelNone then reason else w.control.cancellation }

def step (w : Worker) : Action → Option Worker
  | .shutdown => some { w with control := { w.control with cancellation := cancelRequested } }
  | .watchLease now =>
    match w.leaseWatch with
    | .watching =>
      if w.control.cancellation ≠ cancelNone then some { w with leaseWatch := .ended }
      else if w.control.leaseUntil ≤ now then some { w with leaseWatch := .losing }
      else some w
    | _ => none
  | .loseLease =>
    match w.leaseWatch with
    | .losing => some { w with leaseWatch := .ended, control := w.exchange cancelLeaseLost }
    | _ => none
  | .timeOut => if w.timeoutPending then some { w with timeoutPending := false, control := w.exchange cancelJobTimeout } else none
  | .heartbeat => (w.heartbeat.step w.control).map fun r => { w with control := r.1, heartbeat := r.2 }
  | .heartbeatReply reply => (w.heartbeat.reply reply).map fun heartbeat => { w with heartbeat := heartbeat }
  | .work event =>
    (w.work.step w.git w.steps w.control event).map fun r =>
      { w with control := r.1, work := r.2, started := w.started + w.work.starts event }

end Worker

end CYC.Control
