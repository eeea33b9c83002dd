import ClusterYourCodex.Lib.Machine
import ClusterYourCodex.Lib.Sha256

/-! The log pump of a child process: two readers drain its output pipes into log files and a bounded channel, under a
budget that all steps of a job share, and a loop hands the chunks over while the child is monitored. Every access to
shared state is an action of its own, so that a run of the machine is an interleaving. -/

namespace CYC.Process

inductive LogStream where
  | stdout
  | stderr
  deriving DecidableEq, Repr

structure LogChunk where
  stream : LogStream
  bytes : List UInt8
  deriving DecidableEq

structure LogBudget where
  remaining : Nat
  truncated : LogStream → Bool

def LogBudget.new (maxBytes : Nat) : LogBudget := ⟨maxBytes, fun _ => false⟩

def LogBudget.markTruncated (budget : LogBudget) (stream : LogStream) : LogBudget :=
  { budget with truncated := Function.update budget.truncated stream true }

/-! ### Readers -/

/-- Where a reader is in its loop. The buffer holds the bytes of the last read. -/
inductive Phase where
  | reading
  | loading (buffer : List UInt8)
  | exchanging (buffer : List UInt8) (remaining : Nat)
  | marking (buffer : List UInt8) (retained : Nat)
  | writing (buffer : List UInt8) (retained : Nat)
  | hashing (buffer : List UInt8) (retained : Nat)
  | sending (buffer : List UInt8) (retained : Nat)
  | syncing
  | ended
  | failed
  deriving DecidableEq

structure Reader where
  /-- All that the child writes to the pipe. -/
  output : List UInt8
  /-- How much of it has been read. -/
  position : Nat
  phase : Phase
  file : List UInt8
  hashed : List UInt8
  stored : Nat
  chunks : Nat
  truncated : Bool
  deriving DecidableEq

def bufferSize : Nat := 64 * 1024

def channelCapacity : Nat := 16

namespace Reader

def start (output : List UInt8) : Reader where
  output := output
  position := 0
  phase := .reading
  file := []
  hashed := []
  stored := 0
  chunks := 0
  truncated := false

/-- The end of a turn of the loop. -/
def turn (r : Reader) (buffer : List UInt8) (retained : Nat) : Reader :=
  { r with truncated := r.truncated || retained ≠ buffer.length, phase := .reading }

/-- What the reader does with the answer of `retain`. -/
def afterRetain (r : Reader) (buffer : List UInt8) (retained : Nat) : Reader :=
  if 0 < retained then { r with phase := .writing buffer retained } else r.turn buffer retained

/-- The reader has returned and dropped its sender. -/
def done (r : Reader) : Bool :=
  match r.phase with
  | .ended => true
  | .failed => true
  | _ => false

end Reader

/-- What a reader can do next. -/
inductive Act where
  | read (count : Nat)
  | eof
  | load
  | exchange (spurious : Bool)
  | mark
  | write
  | hash
  | send
  | sync
  | fail
  deriving DecidableEq

/-- An action of the reader of a stream: the budget, the channel and the reader after it. -/
def Reader.step (stream : LogStream) (receiving : Bool) (budget : LogBudget) (queue : List LogChunk) (r : Reader) :
    Act → Option (LogBudget × List LogChunk × Reader)
  | .read count =>
    match r.phase with
    | .reading =>
      if 0 < count ∧ count ≤ bufferSize ∧ r.position + count ≤ r.output.length then
        some (budget, queue,
          { r with position := r.position + count, phase := .loading ((r.output.drop r.position).take count) })
      else none
    | _ => none
  | .eof =>
    match r.phase with
    | .reading => if r.position = r.output.length then some (budget, queue, { r with phase := .syncing }) else none
    | _ => none
  | .load =>
    match r.phase with
    | .loading buffer => some (budget, queue, { r with phase := .exchanging buffer budget.remaining })
    | _ => none
  | .exchange spurious =>
    match r.phase with
    | .exchanging buffer remaining =>
      if budget.remaining = remaining ∧ spurious = false then
        let retained := min remaining buffer.length
        some ({ budget with remaining := remaining - retained }, queue,
          if retained ≠ buffer.length then { r with phase := .marking buffer retained } else r.afterRetain buffer retained)
      else some (budget, queue, { r with phase := .exchanging buffer budget.remaining })
    | _ => none
  | .mark =>
    match r.phase with
    | .marking buffer retained => some (budget.markTruncated stream, queue, r.afterRetain buffer retained)
    | _ => none
  | .write =>
    match r.phase with
    | .writing buffer retained =>
      some (budget, queue, { r with file := r.file ++ buffer.take retained, phase := .hashing buffer retained })
    | _ => none
  | .hash =>
    match r.phase with
    | .hashing buffer retained =>
      some (budget, queue, { r with hashed := r.hashed ++ buffer.take retained, phase := .sending buffer retained })
    | _ => none
  | .send =>
    match r.phase with
    | .sending buffer retained =>
      if receiving ∧ queue.length < channelCapacity then
        some (budget, queue ++ [⟨stream, buffer.take retained⟩],
          { r with stored := r.stored + retained, chunks := r.chunks + 1 }.turn buffer retained)
      else none
    | _ => none
  | .sync =>
    match r.phase with
    | .syncing => some (budget, queue, { r with phase := .ended })
    | _ => none
  | .fail =>
    match r.phase with
    | .reading => some (budget, queue, { r with phase := .failed })
    | .writing _ _ => some (budget, queue, { r with phase := .failed })
    | .sending _ _ => if receiving then none else some (budget, queue, { r with phase := .failed })
    | .syncing => some (budget, queue, { r with phase := .failed })
    | _ => none

/-! ### The loop -/

inductive LoopPhase where
  | checking
  | pollingWait
  | pollingRecv
  | uploading (chunk : LogChunk)
  | joining
  | returned
  | failed
  deriving DecidableEq

structure Pump where
  budget : LogBudget
  reader : LogStream → Reader
  queue : List LogChunk
  /-- Whether the monitor has returned, and with success. -/
  monitor : Option Bool
  /-- Whether the loop has the monitor's result. -/
  waited : Bool
  loop : LoopPhase
  /-- The chunks taken from the channel, those handed to the sink, and those that the sink has uploaded. -/
  received : List LogChunk
  handed : List LogChunk
  acknowledged : List LogChunk
  uploadError : Bool
  iterations : Nat

inductive Action where
  | reader (stream : LogStream) (act : Act)
  | monitor (ok : Bool)
  | check
  | pollWait
  | pollRecv
  | uploaded (ok : Bool)
  | join (ok : Bool)
  deriving DecidableEq

namespace Pump

def start (budget : LogBudget) (stdout stderr : List UInt8) : Pump where
  budget := budget
  reader
    | .stdout => .start stdout
    | .stderr => .start stderr
  queue := []
  monitor := none
  waited := false
  loop := .checking
  received := []
  handed := []
  acknowledged := []
  uploadError := false
  iterations := 0

/-- All senders are gone. -/
def closed (p : Pump) : Bool := (p.reader .stdout).done && (p.reader .stderr).done

/-- The receiver exists until the function returns. -/
def receiving (p : Pump) : Bool := p.loop ≠ .returned && p.loop ≠ .failed

/-- What the loop does with a chunk. -/
def take (p : Pump) (chunk : LogChunk) (rest : List LogChunk) : Pump :=
  let p := { p with queue := rest, received := p.received ++ [chunk] }
  if p.uploadError then { p with loop := .checking } else { p with handed := p.handed ++ [chunk], loop := .uploading chunk }

/-- `recv` is ready with a chunk or with the end of the channel, or it is pending. -/
def recv (p : Pump) : Pump :=
  match p.queue with
  | chunk :: rest => p.take chunk rest
  | [] =>
    if p.closed then { p with loop := if p.waited then .joining else .checking }
    else { p with loop := .pollingWait }

def step (p : Pump) : Action → Option Pump
  | .reader stream act =>
    match (p.reader stream).step stream p.receiving p.budget p.queue act with
    | some (budget, queue, r) =>
      some { p with budget := budget, queue := queue, reader := Function.update p.reader stream r }
    | none => none
  | .monitor ok => if p.monitor = none then some { p with monitor := some ok } else none
  | .check =>
    match p.loop with
    | .checking =>
      some { p with
        iterations := p.iterations + 1
        loop := if p.waited && p.closed && p.queue.isEmpty then .joining else .pollingWait }
    | _ => none
  | .pollWait =>
    match p.loop with
    | .pollingWait =>
      if p.waited then some { p with loop := .pollingRecv }
      else match p.monitor with
        | none => some { p with loop := .pollingRecv }
        | some true => some { p with waited := true, loop := .checking }
        | some false => some { p with loop := .failed }
    | _ => none
  | .pollRecv =>
    match p.loop with
    | .pollingRecv => some p.recv
    | _ => none
  | .uploaded ok =>
    match p.loop with
    | .uploading chunk =>
      some { p with
        acknowledged := if ok then p.acknowledged ++ [chunk] else p.acknowledged
        uploadError := !ok
        loop := .checking }
    | _ => none
  | .join ok =>
    match p.loop with
    | .joining =>
      some { p with
        loop := if (p.reader .stdout).phase = .ended ∧ (p.reader .stderr).phase = .ended ∧ ok then .returned else .failed }
    | _ => none

end Pump

/-- What `run_process` reports about a stream. -/
structure ProcessStreamEvidence where
  byteCount : Nat
  sha256 : String
  truncated : Bool
  chunkCount : Nat
  deriving DecidableEq

def Reader.evidence (r : Reader) : ProcessStreamEvidence where
  byteCount := r.stored
  sha256 := Sha256.hex (r.hashed.map UInt8.toNat)
  truncated := r.truncated
  chunkCount := r.chunks

/-! ### Steps -/

/-- The steps of a job run one after another under one budget. -/
structure Job where
  past : List Pump
  current : Pump

inductive JobAction where
  | pump (action : Action)
  | next (stdout stderr : List UInt8)
  deriving DecidableEq

namespace Job

def start (maxBytes : Nat) (stdout stderr : List UInt8) : Job := ⟨[], .start (.new maxBytes) stdout stderr⟩

def step (j : Job) : JobAction → Option Job
  | .pump action => (j.current.step action).map fun p => { j with current := p }
  | .next stdout stderr =>
    match j.current.loop with
    | .returned => some ⟨j.past ++ [j.current], .start j.current.budget stdout stderr⟩
    | _ => none

end Job

end CYC.Process
