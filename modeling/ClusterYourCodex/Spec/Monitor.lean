import ClusterYourCodex.Lib.Polling

/-! The monitor of a child process. The worker polls the root process until it exits, is cancelled or times out, and
reports the end only after the process tree was found empty. What the operating system answers, and how long each call
takes, is a parameter. -/

namespace CYC.Monitor

open Timed

/-- Durations are in nanoseconds. -/
def millis (n : Nat) : Nat := n * 1000000

def treeEmptyQuiescence : Nat := millis 100

def cancelNone : UInt8 := 0
def cancelRequested : UInt8 := 1
def cancelLeaseLost : UInt8 := 2
def cancelTransportFailure : UInt8 := 3
def cancelJobTimeout : UInt8 := 4

inductive ProcessTerminationReason where
  | exited
  | executionFailed
  | timedOut
  | cancelRequested
  | leaseLost
  | transportFailure
  deriving DecidableEq, Repr

structure ExitStatus where
  code : Option Int32
  signal : Option Int32
  deriving DecidableEq

structure MonitorResult where
  status : ExitStatus
  reason : ProcessTerminationReason
  processTreeTerminated : Bool
  forcedKill : Bool
  deriving DecidableEq

/-- The calls of a program are numbered, and the host has an answer for each. -/
structure Host where
  /-- How long a call takes, beyond the pause it asks for. -/
  pace : Nat → Nat
  /-- The calls that fail, with their errors. -/
  failure : Nat → Option String
  /-- The answers of the process tree's `is_empty`. -/
  empty : Nat → Bool
  /-- The exit of the root, if it exits. -/
  exit : Option (Nat × ExitStatus)
  /-- The cancellation cell at each instant. -/
  signal : Nat → UInt8

/-- Programs that watch the process tree. -/
abbrev Watching (α : Type) : Type := Timed Bool String α

namespace Host

variable (host : Host)

def outcome {α : Type} (n : Nat) (a : α) : Except String α :=
  match host.failure n with
  | some e => .error e
  | none => .ok a

/-- The status of the root at an instant. -/
def status (now : Nat) : Option ExitStatus :=
  match host.exit with
  | some (at_, status) => if at_ ≤ now then some status else none
  | none => none

/-- A call that has no answer but its success: `observe`, `terminate` and `force_kill` of the process tree. -/
def act : Watching Unit := ask host.pace 0 fun n _ => host.outcome n ()

def isEmpty : Watching Bool := watch host.pace fun n _ => host.outcome n (host.empty n)

def tryWait : Watching (Option ExitStatus) := ask host.pace 0 fun n now => host.outcome n (host.status now)

def load : Watching UInt8 := ask host.pace 0 fun _ now => .ok (host.signal now)

end Host

variable (host : Host)

/-- The inner loop of `wait_for_tree_empty` is left early if a process is seen. -/
def occupied (_ : Unit) : Watching (Unit ⊕ Unit) := do
  if ← host.isEmpty then pure (.inl ()) else pure (.inr ())

/-- One round of its outer loop: no answer unless the tree stays empty for the quiescence window. -/
def emptyThroughout (_ : Unit) : Watching (Unit ⊕ Unit) := do
  if ← host.isEmpty then do
    let now ← clock host.pace
    match ← pollUntil host.pace (occupied host) (now + treeEmptyQuiescence) (millis 10) () with
    | .inr () => pure (.inl ())
    | .inl () => pure (.inr ())
  else pure (.inl ())

def waitForTreeEmpty (timeout : Nat) : Watching Bool := do
  let now ← clock host.pace
  match ← pollUntil host.pace (emptyThroughout host) (now + timeout) (millis 50) () with
  | .inr () => pure true
  | .inl () => pure false

def remainedAlive : String := "process tree remained alive after forced termination"

def cleanupAfterRootExit : Watching Bool := do
  if ← waitForTreeEmpty host treeEmptyQuiescence then pure false else do
    host.act
    if ← waitForTreeEmpty host (millis 3000) then pure false else do
      host.act
      if ← waitForTreeEmpty host (millis 3000) then pure true else fail remainedAlive

/-- A round of either loop of `wait_after_termination`: the root is asked for until its status is known, and the tree
from then on. -/
def ended : Option ExitStatus → Watching (Option ExitStatus ⊕ ExitStatus)
  | some status => do
    if ← host.isEmpty then pure (.inr status) else pure (.inl (some status))
  | none => do
    match ← host.tryWait with
    | none => pure (.inl none)
    | some status => do
      if ← host.isEmpty then pure (.inr status) else pure (.inl (some status))

def waitAfterForcedKill (status : Option ExitStatus) : Watching (ExitStatus × Bool) := do
  host.act
  let now ← clock host.pace
  match ← pollUntil host.pace (ended host) (now + millis 3000) (millis 50) status with
  | .inr status => pure (status, true)
  | .inl _ => fail remainedAlive

def waitAfterTermination : Watching (ExitStatus × Bool) := do
  let now ← clock host.pace
  match ← pollUntil host.pace (ended host) (now + millis 3000) (millis 50) none with
  | .inr status => pure (status, false)
  | .inl status => waitAfterForcedKill host status

/-- The reason that the cell gives for a termination. -/
def interruption (signal : UInt8) : Option ProcessTerminationReason :=
  if signal = cancelRequested then some .cancelRequested
  else if signal = cancelLeaseLost then some .leaseLost
  else if signal = cancelTransportFailure then some .transportFailure
  else if signal = cancelJobTimeout then some .timedOut
  else none

/-- A poll of the monitor's loop. -/
def poll (_ : Unit) : Watching (Unit ⊕ (ExitStatus ⊕ ProcessTerminationReason)) := do
  host.act
  match ← host.tryWait with
  | some status => pure (.inr (.inl status))
  | none => do
    match interruption (← host.load) with
    | some reason => pure (.inr (.inr reason))
    | none => pure (.inl ())

def terminateTree (reason : ProcessTerminationReason) : Watching MonitorResult := do
  host.act
  let (status, forcedKill) ← waitAfterTermination host
  pure ⟨status, reason, true, forcedKill⟩

def reapTree (status : ExitStatus) : Watching MonitorResult := do
  let forcedKill ← cleanupAfterRootExit host
  pure ⟨status, .exited, true, forcedKill⟩

def monitorChild (timeout : Nat) : Watching MonitorResult := do
  let now ← clock host.pace
  match ← pollUntil host.pace (poll host) (now + timeout) (millis 20) () with
  | .inr (.inl status) => reapTree host status
  | .inr (.inr reason) => terminateTree host reason
  | .inl () => terminateTree host .timedOut

end CYC.Monitor
