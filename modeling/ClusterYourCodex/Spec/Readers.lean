import Mathlib.Data.List.Basic

/-! Readers that hand out bytes in pieces: the bound on a decompressed snapshot (`cyc-worker`, `source.rs`),
and the two output streams of an SSH command that are drained without blocking (`cyc-ssh`, `lib.rs`).
Lengths are natural numbers: the saturating sums of the source stay below their limit for buffers that
are in memory. -/

namespace CYC

/-! ### The bounded snapshot reader -/

/-- A reader with the bytes that are left. It never reports an end before it, but the call with number `i` hands out at
most `sizes i + 1` bytes. -/
structure InnerReader where
  rest : List UInt8
  sizes : Nat → Nat
  calls : Nat

def InnerReader.read (r : InnerReader) (buffer : Nat) : List UInt8 × InnerReader :=
  let length := min (r.sizes r.calls + 1) (min buffer r.rest.length)
  (r.rest.take length, { r with rest := r.rest.drop length, calls := r.calls + 1 })

structure BoundedSnapshotReader where
  inner : InnerReader
  observed : Nat
  maximum : Nat

namespace BoundedSnapshotReader

def new (inner : InnerReader) (maximum : Nat) : BoundedSnapshotReader := ⟨inner, 0, maximum⟩

def read (r : BoundedSnapshotReader) (buffer : Nat) : Except String (List UInt8) × BoundedSnapshotReader :=
  if buffer = 0 then (.ok [], r)
  else
    let remaining := r.maximum - r.observed
    if remaining = 0 then
      let (probe, inner) := r.inner.read 1
      (if probe.isEmpty then .ok [] else .error "snapshot decompressed tar stream exceeds its bound", { r with inner })
    else
      let (bytes, inner) := r.inner.read (min remaining buffer)
      (.ok bytes, { r with inner, observed := r.observed + bytes.length })

/-- What a sequence of reads returns, and the reader after it. -/
def reads (r : BoundedSnapshotReader) : List Nat → List (Except String (List UInt8)) × BoundedSnapshotReader
  | [] => ([], r)
  | buffer :: buffers =>
    let (result, r₁) := r.read buffer
    let (results, r₂) := r₁.reads buffers
    (result :: results, r₂)

end BoundedSnapshotReader

/-- The bytes of the reads that succeeded. -/
def deliveredBytes (results : List (Except String (List UInt8))) : List UInt8 :=
  results.flatMap fun result => result.toOption.getD []

/-! ### The output of a command -/

/-- What one read returns; data is never empty. -/
inductive ReadResult where
  | data (byte : UInt8) (bytes : List UInt8)
  | wouldBlock
  | eof
  | failed

def ReadResult.bytes : ReadResult → List UInt8
  | .data byte bytes => byte :: bytes
  | .wouldBlock | .eof | .failed => []

inductive OutputError where
  | outputLimitExceeded (stream : String) (maximumBytes : Nat)
  | io

/-- A reader whose read with number `i` returns `results i`, after `reads` of them. -/
structure ChannelReader where
  results : Nat → ReadResult
  reads : Nat

def ChannelReader.next (r : ChannelReader) : ChannelReader := { r with reads := r.reads + 1 }

def drainAvailable (otherStreamBytes maximumBytes : Nat) (stream : String) (reader : ChannelReader) (output : List UInt8)
    (progressed : Bool) : Except OutputError Bool × ChannelReader × List UInt8 :=
  match reader.results reader.reads with
  | .eof | .wouldBlock => (.ok progressed, reader.next, output)
  | .failed => (.error .io, reader.next, output)
  | .data byte bytes =>
    if maximumBytes < output.length + otherStreamBytes + (byte :: bytes).length then
      (.error (.outputLimitExceeded stream maximumBytes), reader.next, output)
    else drainAvailable otherStreamBytes maximumBytes stream reader.next (output ++ byte :: bytes) true
termination_by maximumBytes - (output.length + otherStreamBytes)
decreasing_by
  simp only [List.length_append, List.length_cons] at *
  omega

structure ChannelOutput where
  stdoutReader : ChannelReader
  stderrReader : ChannelReader
  stdout : List UInt8
  stderr : List UInt8

def pumpAvailablePair (maximumBytes : Nat) (c : ChannelOutput) : Except OutputError Bool × ChannelOutput :=
  match drainAvailable c.stderr.length maximumBytes "command stdout" c.stdoutReader c.stdout false with
  | (.error e, stdoutReader, stdout) => (.error e, { c with stdoutReader, stdout })
  | (.ok stdoutProgressed, stdoutReader, stdout) =>
    match drainAvailable stdout.length maximumBytes "command stderr" c.stderrReader c.stderr false with
    | (.error e, stderrReader, stderr) => (.error e, ⟨stdoutReader, stderrReader, stdout, stderr⟩)
    | (.ok stderrProgressed, stderrReader, stderr) =>
      (.ok (stdoutProgressed || stderrProgressed), ⟨stdoutReader, stderrReader, stdout, stderr⟩)

end CYC
