import ClusterYourCodex.Spec.Readers

/-! The bounded readers are exact. What the snapshot reader delivers is a front of the content that the bound never
cuts short, and only a byte beyond the bound makes it fail. The two streams of a command hold exactly what
their readers delivered, up to the read that would exceed the common limit. -/

namespace CYC

/-! ### The bounded snapshot reader -/

@[simp] theorem deliveredBytes_nil : deliveredBytes [] = [] := rfl

@[simp] theorem deliveredBytes_ok (bytes : List UInt8) (results : List (Except String (List UInt8))) :
    deliveredBytes (.ok bytes :: results) = bytes ++ deliveredBytes results := rfl

@[simp] theorem deliveredBytes_error (e : String) (results : List (Except String (List UInt8))) :
    deliveredBytes (.error e :: results) = deliveredBytes results := rfl

namespace BoundedSnapshotReader

variable {r : BoundedSnapshotReader} {content delivered swallowed : List UInt8} {buffer : Nat}

/-- A read reports the end, or hands out bytes within the bound, or meets a byte beyond it. -/
inductive Reads (r : BoundedSnapshotReader) : Except String (List UInt8) × BoundedSnapshotReader → Prop where
  | eof {inner : InnerReader} (hend : r.inner.rest = []) (hinner : inner.rest = []) : Reads r (.ok [], { r with inner })
  | data {inner : InnerReader} {k : Nat} (hpositive : 0 < k) (hroom : k ≤ r.maximum - r.observed)
    (hlength : k ≤ r.inner.rest.length) (hinner : inner.rest = r.inner.rest.drop k) :
    Reads r (.ok (r.inner.rest.take k), { r with inner, observed := r.observed + k })
  | exceeds {inner : InnerReader} {byte : UInt8} (hfull : r.maximum ≤ r.observed) (hinner : r.inner.rest = byte :: inner.rest) :
    Reads r (.error "snapshot decompressed tar stream exceeds its bound", { r with inner })

theorem reads_read (hbuffer : buffer ≠ 0) : r.Reads (r.read buffer) := by
  unfold read
  rw [if_neg hbuffer]
  dsimp only
  split
  · next hremaining =>
    -- the bound is reached: the probe decides between the end and a failure
    cases hrest : r.inner.rest with
    | nil =>
      simp only [InnerReader.read, hrest, List.take_nil, List.isEmpty_nil, if_true]
      exact .eof hrest rfl
    | cons byte rest =>
      simp only [InnerReader.read, hrest, List.length_cons]
      rw [show min (r.inner.sizes r.inner.calls + 1) (min 1 (rest.length + 1)) = 1 by omega]
      exact .exceeds (by omega) hrest
  · next hremaining =>
    simp only [InnerReader.read]
    generalize hk : min (r.inner.sizes r.inner.calls + 1)
      (min (min (r.maximum - r.observed) buffer) r.inner.rest.length) = k
    by_cases hrest : r.inner.rest = []
    · have hzero : k = 0 := by
        rw [hrest, List.length_nil] at hk
        omega
      simp only [hrest, List.take_nil, hzero]
      exact .eof hrest List.drop_nil
    · have hpositive : 0 < r.inner.rest.length := List.length_pos_iff.2 hrest
      rw [List.length_take, Nat.min_eq_left (by omega)]
      exact .data (by omega) (by omega) (by omega) rfl

/-- The bytes that were handed out, those that a probe has swallowed, and those that are left. A probe swallows a byte
only when the bound is reached. -/
structure Holds (r : BoundedSnapshotReader) (content delivered swallowed : List UInt8) : Prop where
  content : content = delivered ++ (swallowed ++ r.inner.rest)
  observed : r.observed = delivered.length
  bounded : delivered.length ≤ r.maximum
  full : swallowed ≠ [] → delivered.length = r.maximum

/-- What one more read adds to what was handed out. -/
theorem Holds.read (h : r.Holds content delivered swallowed) (hbuffer : buffer ≠ 0) :
    ∃ swallowed', (r.read buffer).2.Holds content (delivered ++ deliveredBytes [(r.read buffer).1]) swallowed' ∧
      (r.read buffer).2.maximum = r.maximum ∧ (swallowed' = [] ↔ swallowed = [] ∧ (r.read buffer).1.isOk) ∧
      min (delivered.length + 1) (min content.length r.maximum) ≤
        (delivered ++ deliveredBytes [(r.read buffer).1]).length := by
  obtain ⟨hcontent, hobserved, hbounded, hfull⟩ := h
  have hlength := congrArg List.length hcontent
  simp only [List.length_append] at hlength
  have hreads : r.Reads (r.read buffer) := reads_read hbuffer
  generalize r.read buffer = pair at hreads
  cases hreads with
  | eof hend hinner =>
    have hswallowed : swallowed.length = 0 ∨ delivered.length = r.maximum := by
      by_cases hnil : swallowed = []
      · exact .inl (by rw [hnil, List.length_nil])
      · exact .inr (hfull hnil)
    refine ⟨swallowed, ⟨by simpa [hinner, hend] using hcontent, by simpa using hobserved, by simpa using hbounded, ?_⟩, rfl,
      by simp [Except.isOk, Except.toBool], ?_⟩
    · simpa using hfull
    · simp only [hend, List.length_nil, deliveredBytes_ok, deliveredBytes_nil, List.append_nil] at hlength ⊢
      omega
  | @data inner k hpositive hroom hk hinner =>
    have hnone : swallowed = [] := by
      by_contra hne
      have := hfull hne
      omega
    subst hnone
    refine ⟨[], ⟨?_, ?_, ?_, fun hne => absurd rfl hne⟩, rfl, by simp [Except.isOk, Except.toBool], ?_⟩
    · simpa [hinner] using hcontent
    · simp [hobserved, Nat.min_eq_left hk]
    all_goals
      simp only [deliveredBytes_ok, deliveredBytes_nil, List.append_nil, List.length_append, List.length_take]
      omega
  | @exceeds inner byte hreached hinner =>
    have hmax : delivered.length = r.maximum := by omega
    refine ⟨swallowed ++ [byte], ⟨by simpa [hinner] using hcontent, by simpa using hobserved, by simpa using hbounded, ?_⟩, rfl,
      by simp [Except.isOk, Except.toBool], ?_⟩
    · simpa using hmax
    · simp only [deliveredBytes_error, deliveredBytes_nil, List.append_nil]
      omega

/-- The same for a sequence of reads: each of them that has room in its buffer brings a byte, until the content or the
bound is exhausted. -/
theorem Holds.reads (buffers : List Nat) : ∀ {r : BoundedSnapshotReader} {delivered swallowed : List UInt8},
    r.Holds content delivered swallowed → ∃ swallowed',
      (r.reads buffers).2.Holds content (delivered ++ deliveredBytes (r.reads buffers).1) swallowed' ∧
      (r.reads buffers).2.maximum = r.maximum ∧
      (swallowed' = [] ↔ swallowed = [] ∧ ∀ result ∈ (r.reads buffers).1, result.isOk) ∧
      min (delivered.length + buffers.countP (· ≠ 0)) (min content.length r.maximum) ≤
        (delivered ++ deliveredBytes (r.reads buffers).1).length := by
  induction buffers with
  | nil =>
    intro r delivered swallowed h
    refine ⟨swallowed, by simpa [BoundedSnapshotReader.reads] using h, rfl, by simp [BoundedSnapshotReader.reads], ?_⟩
    simp only [BoundedSnapshotReader.reads, deliveredBytes_nil, List.append_nil, List.countP_nil]
    omega
  | cons buffer buffers ih =>
    intro r delivered swallowed h
    by_cases hbuffer : buffer = 0
    · -- a read into an empty buffer changes nothing
      subst hbuffer
      obtain ⟨swallowed', hholds, hmaximum, hok, hprogress⟩ := ih h
      exact ⟨swallowed', by simpa [BoundedSnapshotReader.reads, BoundedSnapshotReader.read] using hholds, hmaximum,
        by simpa [BoundedSnapshotReader.reads, BoundedSnapshotReader.read, Except.isOk, Except.toBool] using hok,
        by simpa [BoundedSnapshotReader.reads, BoundedSnapshotReader.read] using hprogress⟩
    · obtain ⟨swallowed₁, hholds₁, hmaximum₁, hok₁, hprogress₁⟩ := h.read hbuffer
      obtain ⟨swallowed', hholds, hmaximum, hok, hprogress⟩ := ih hholds₁
      have hdelivered : deliveredBytes (r.reads (buffer :: buffers)).1 =
          deliveredBytes [(r.read buffer).1] ++ deliveredBytes ((r.read buffer).2.reads buffers).1 := by
        simp [BoundedSnapshotReader.reads, deliveredBytes]
      rw [hdelivered, ← List.append_assoc]
      refine ⟨swallowed', hholds, hmaximum.trans hmaximum₁, ?_, ?_⟩
      · rw [hok, hok₁]
        simp [BoundedSnapshotReader.reads, and_assoc]
      · rw [hmaximum₁] at hprogress
        rw [List.countP_cons_of_pos (by simpa using hbuffer)]
        omega

end BoundedSnapshotReader

/-- For every content, every pattern of short reads, every bound and every sequence of buffers: what was delivered is a
front of the content within the bound, and as long as it can be as the reads allow. If the content fits, no read fails
and a read reports the end exactly when everything was delivered; if it does not, reads hand out bytes up to the bound,
and the first read after that fails. -/
theorem bounded_snapshot_reader_exact (content : List UInt8) (sizes : Nat → Nat) (maximum : Nat) (buffers : List Nat) :
    let run := (BoundedSnapshotReader.new ⟨content, sizes, 0⟩ maximum).reads buffers
    let delivered := deliveredBytes run.1
    delivered <+: content ∧ delivered.length ≤ maximum ∧
      min (buffers.countP (· ≠ 0)) (min content.length maximum) ≤ delivered.length ∧
      (content.length ≤ maximum → (∀ result ∈ run.1, result.isOk) ∧ ∀ buffer, buffer ≠ 0 →
        ∃ bytes, (run.2.read buffer).1 = .ok bytes ∧ (bytes = [] ↔ delivered = content)) ∧
      (maximum < content.length → ∀ buffer, buffer ≠ 0 →
        (delivered.length < maximum → ∃ bytes, (run.2.read buffer).1 = .ok bytes ∧ bytes ≠ []) ∧
        (delivered.length = maximum → (∀ result ∈ run.1, result.isOk) →
          (run.2.read buffer).1 = .error "snapshot decompressed tar stream exceeds its bound")) := by
  intro run delivered
  have hstart : (BoundedSnapshotReader.new ⟨content, sizes, 0⟩ maximum).Holds content [] [] :=
    ⟨rfl, rfl, Nat.zero_le _, fun hne => absurd rfl hne⟩
  obtain ⟨swallowed, hholds, hmaximum, hok, hprogress⟩ := hstart.reads buffers
  change run.2.Holds content delivered swallowed at hholds
  change run.2.maximum = maximum at hmaximum
  change swallowed = [] ↔ [] = [] ∧ ∀ result ∈ run.1, result.isOk at hok
  obtain ⟨hcontent, hobserved, hbounded, hfull⟩ := hholds
  rw [hmaximum] at hbounded hfull
  rw [eq_self_iff_true, true_and] at hok
  rw [List.length_nil, Nat.zero_add] at hprogress
  have hlength : content.length = delivered.length + (swallowed.length + run.2.inner.rest.length) := by
    rw [hcontent, List.length_append, List.length_append]
  refine ⟨⟨_, hcontent.symm⟩, hbounded, hprogress, ?_, ?_⟩
  · intro hfits
    have hnone : swallowed = [] := by
      by_contra hne
      have := List.length_pos_iff.2 hne
      have := hfull hne
      omega
    refine ⟨hok.1 hnone, fun buffer hbuffer => ?_⟩
    have hreads := BoundedSnapshotReader.reads_read (r := run.2) hbuffer
    generalize run.2.read buffer = pair at hreads
    cases hreads with
    | eof hend hinner => exact ⟨[], rfl, iff_of_true rfl (by simpa [hnone, hend] using hcontent.symm)⟩
    | @data inner k hpositive hroom hk hinner =>
      refine ⟨_, rfl, iff_of_false (fun hnil => ?_) fun heq => ?_⟩
      · have := congrArg List.length hnil
        rw [List.length_take, List.length_nil] at this
        omega
      · rw [heq] at hlength
        omega
    | exceeds hreached hinner =>
      rw [hinner, List.length_cons] at hlength
      omega
  · intro hlong buffer hbuffer
    have hreads := BoundedSnapshotReader.reads_read (r := run.2) hbuffer
    generalize run.2.read buffer = pair at hreads
    refine ⟨fun hroom => ?_, fun hreached hall => ?_⟩
    · have hnone : swallowed = [] := by
        by_contra hne
        have := hfull hne
        omega
      cases hreads with
      | eof hend hinner =>
        rw [hnone, hend, List.length_nil] at hlength
        omega
      | @data inner k hpositive hk' hk hinner =>
        refine ⟨_, rfl, fun hnil => ?_⟩
        have := congrArg List.length hnil
        rw [List.length_take, List.length_nil] at this
        omega
      | exceeds hreached hinner => omega
    · have hnone : swallowed = [] := hok.2 hall
      cases hreads with
      | eof hend hinner =>
        rw [hnone, hend, List.length_nil] at hlength
        omega
      | data hpositive hk' hk hinner => omega
      | exceeds hfull hinner => rfl

theorem bounded_snapshot_reader_exact_three :
    let fitting := (BoundedSnapshotReader.new ⟨[1, 2, 3], fun _ => 1, 0⟩ 3).reads [8, 8]
    let long := (BoundedSnapshotReader.new ⟨[1, 2, 3], fun _ => 1, 0⟩ 2).reads [8]
    (∃ bytes, (fitting.2.read 8).1 = .ok bytes ∧ (bytes = [] ↔ deliveredBytes fitting.1 = [1, 2, 3])) ∧
      (long.2.read 8).1 = .error "snapshot decompressed tar stream exceeds its bound" := by
  obtain ⟨-, -, -, hfitting, -⟩ := bounded_snapshot_reader_exact [1, 2, 3] (fun _ => 1) 3 [8, 8]
  obtain ⟨-, -, -, -, hlong⟩ := bounded_snapshot_reader_exact [1, 2, 3] (fun _ => 1) 2 [8]
  exact ⟨(hfitting (by decide)).2 8 (by decide), (hlong (by decide) 8 (by decide)).2 (by decide) (by decide)⟩

/-! ### The output of a command -/

namespace ChannelReader

/-- What the reads so far brought. -/
def delivered (r : ChannelReader) : List UInt8 := (List.range r.reads).flatMap fun i => (r.results i).bytes

theorem delivered_next (r : ChannelReader) : r.next.delivered = r.delivered ++ (r.results r.reads).bytes := by
  simp [delivered, next, List.range_succ]

/-- The reader was read at least once since, and every read but the last brought data. -/
structure ReadTo (r r' : ChannelReader) : Prop where
  results : r'.results = r.results
  reads : r.reads < r'.reads
  data : ∀ i, r.reads ≤ i → i + 1 < r'.reads → ∃ byte bytes, r.results i = .data byte bytes

/-- The last read found nothing: no more for now, or the end. -/
def Paused (r : ChannelReader) : Prop := r.results (r.reads - 1) = .wouldBlock ∨ r.results (r.reads - 1) = .eof

theorem readTo_next (r : ChannelReader) : r.ReadTo r.next := by
  refine ⟨rfl, Nat.lt_succ_self _, fun i hi hlt => ?_⟩
  have hlt : i + 1 < r.reads + 1 := hlt
  omega

theorem ReadTo.of_next {r r' : ChannelReader} {byte : UInt8} {bytes : List UInt8} (h : r.next.ReadTo r')
    (hread : r.results r.reads = .data byte bytes) : r.ReadTo r' := by
  have hreads : r.reads + 1 < r'.reads := h.reads
  refine ⟨h.results, by omega, fun i hi hlt => ?_⟩
  rcases Nat.eq_or_lt_of_le hi with rfl | hi
  · exact ⟨byte, bytes, hread⟩
  · exact h.data i hi hlt

/-- The last read, which the output has no bytes of, ended the drain: they do not fit beside the other stream, or it
failed. -/
def Stopped (r : ChannelReader) (output : List UInt8) (other maximum : Nat) (stream : String) (e : OutputError) : Prop :=
  ∃ before : ChannelReader, r = before.next ∧ output = before.delivered ∧
    (e = .outputLimitExceeded stream maximum ∧ maximum < output.length + other + (before.results before.reads).bytes.length ∨
      e = .io ∧ before.results before.reads = .failed)

end ChannelReader

variable {other maximum : Nat} {reader : ChannelReader} {output : List UInt8}

/-- A drain that reads until there is nothing more, or until it fails. -/
inductive Drained (other maximum : Nat) (stream : String) (reader : ChannelReader) (output : List UInt8) (progressed : Bool) :
    Except OutputError Bool × ChannelReader × List UInt8 → Prop where
  | emptied {progressed' : Bool} {reader' : ChannelReader} {output' : List UInt8} (hread : reader.ReadTo reader')
    (hpaused : reader'.Paused) (houtput : output' = reader'.delivered) (hlimit : output'.length + other ≤ maximum)
    (hprogress : progressed' = true ↔ progressed = true ∨ output.length < output'.length)
    (hgrows : output.length ≤ output'.length) :
    Drained other maximum stream reader output progressed (.ok progressed', reader', output')
  | stopped {e : OutputError} {reader' : ChannelReader} {output' : List UInt8} (hread : reader.ReadTo reader')
    (hlimit : output'.length + other ≤ maximum) (hstopped : reader'.Stopped output' other maximum stream e) :
    Drained other maximum stream reader output progressed (.error e, reader', output')

theorem drained_drainAvailable (stream : String) (progressed : Bool) (houtput : output = reader.delivered)
    (hlimit : output.length + other ≤ maximum) :
    Drained other maximum stream reader output progressed
      (drainAvailable other maximum stream reader output progressed) := by
  fun_induction drainAvailable other maximum stream reader output progressed with
  | case1 reader output progressed hread =>
    refine .emptied reader.readTo_next (.inr hread) ?_ hlimit (by simp) (Nat.le_refl _)
    rw [reader.delivered_next, hread, houtput]
    exact (List.append_nil _).symm
  | case2 reader output progressed hread =>
    refine .emptied reader.readTo_next (.inl hread) ?_ hlimit (by simp) (Nat.le_refl _)
    rw [reader.delivered_next, hread, houtput]
    exact (List.append_nil _).symm
  | case3 reader output progressed hread =>
    exact .stopped reader.readTo_next hlimit ⟨reader, rfl, houtput, .inr ⟨rfl, hread⟩⟩
  | case4 reader output progressed byte bytes hread hexceeds =>
    exact .stopped reader.readTo_next hlimit ⟨reader, rfl, houtput, .inl ⟨rfl, by rwa [hread]⟩⟩
  | case5 reader output progressed byte bytes hread hfits ih =>
    have hnext : output ++ byte :: bytes = reader.next.delivered := by
      rw [reader.delivered_next, hread, houtput]
      rfl
    have hlonger : output.length < (output ++ byte :: bytes).length := by simp
    have hdrained := ih hnext (by rw [List.length_append]; omega)
    generalize drainAvailable other maximum stream reader.next (output ++ byte :: bytes) true = pair at hdrained
    cases hdrained with
    | emptied hmore hpaused houtput' hlimit' hprogress hgrows =>
      refine .emptied (hmore.of_next hread) hpaused houtput' hlimit' ?_ (by omega)
      exact iff_of_true (hprogress.2 (.inl rfl)) (.inr (by omega))
    | stopped hmore hlimit' hstopped => exact .stopped (hmore.of_next hread) hlimit' hstopped

/-- The output holds what the readers brought, within the limit. -/
structure ChannelOutput.Exact (maximum : Nat) (c : ChannelOutput) : Prop where
  stdout : c.stdout = c.stdoutReader.delivered
  stderr : c.stderr = c.stderrReader.delivered
  limit : c.stdout.length + c.stderr.length ≤ maximum

/-- The states between the calls: `pump_available_pair` is called again after a call that succeeded. -/
inductive Pumped (maximum : Nat) (stdout stderr : Nat → ReadResult) : ChannelOutput → Prop where
  | start : Pumped maximum stdout stderr ⟨⟨stdout, 0⟩, ⟨stderr, 0⟩, [], []⟩
  | call {c c' : ChannelOutput} {progressed : Bool} (h : Pumped maximum stdout stderr c)
    (hcall : pumpAvailablePair maximum c = (.ok progressed, c')) : Pumped maximum stdout stderr c'

/-- One call of the pump: it reads both streams until they have nothing more, or the first of them that stops it. -/
inductive Pumps (maximum : Nat) (c : ChannelOutput) : Except OutputError Bool × ChannelOutput → Prop where
  | returns {progressed : Bool} {c' : ChannelOutput} (hexact : c'.Exact maximum)
    (hstdout : c.stdoutReader.ReadTo c'.stdoutReader) (hstderr : c.stderrReader.ReadTo c'.stderrReader)
    (hpaused : c'.stdoutReader.Paused ∧ c'.stderrReader.Paused)
    (hprogress : progressed = true ↔ c.stdout.length + c.stderr.length < c'.stdout.length + c'.stderr.length) :
    Pumps maximum c (.ok progressed, c')
  | stdoutFails {e : OutputError} {stdoutReader : ChannelReader} {stdout : List UInt8}
    (hlimit : stdout.length + c.stderr.length ≤ maximum) (hstdout : c.stdoutReader.ReadTo stdoutReader)
    (hstopped : stdoutReader.Stopped stdout c.stderr.length maximum "command stdout" e) :
    Pumps maximum c (.error e, { c with stdoutReader, stdout })
  | stderrFails {e : OutputError} {c' : ChannelOutput} (hlimit : c'.stdout.length + c'.stderr.length ≤ maximum)
    (hstdout : c.stdoutReader.ReadTo c'.stdoutReader) (hpaused : c'.stdoutReader.Paused)
    (houtput : c'.stdout = c'.stdoutReader.delivered) (hstderr : c.stderrReader.ReadTo c'.stderrReader)
    (hstopped : c'.stderrReader.Stopped c'.stderr c'.stdout.length maximum "command stderr" e) :
    Pumps maximum c (.error e, c')

theorem ChannelOutput.Exact.pump {c : ChannelOutput} (h : c.Exact maximum) : Pumps maximum c (pumpAvailablePair maximum c) := by
  obtain ⟨hstdout, hstderr, hlimit⟩ := h
  have hfirst := drained_drainAvailable "command stdout" false hstdout hlimit
  unfold pumpAvailablePair
  generalize drainAvailable c.stderr.length maximum "command stdout" c.stdoutReader c.stdout false = first at hfirst
  cases hfirst with
  | stopped hread hlimit₁ hstopped => exact .stdoutFails hlimit₁ hread hstopped
  | @emptied progressed₁ reader₁ output₁ hread hpaused houtput hlimit₁ hprogress₁ hgrows₁ =>
    have hroom : c.stderr.length + output₁.length ≤ maximum := by omega
    have hsecond := drained_drainAvailable "command stderr" false hstderr hroom
    dsimp only
    generalize drainAvailable output₁.length maximum "command stderr" c.stderrReader c.stderr false = second at hsecond
    cases hsecond with
    | stopped hread₂ hlimit₂ hstopped =>
      exact .stderrFails (by rwa [Nat.add_comm] at hlimit₂) hread hpaused houtput hread₂ hstopped
    | emptied hread₂ hpaused₂ houtput₂ hlimit₂ hprogress₂ hgrows₂ =>
      refine .returns ⟨houtput, houtput₂, by rwa [Nat.add_comm] at hlimit₂⟩ hread hread₂ ⟨hpaused, hpaused₂⟩ ?_
      rw [Bool.or_eq_true, hprogress₁, hprogress₂]
      dsimp only
      constructor
      · rintro ((h | h) | (h | h))
        · cases h
        · omega
        · cases h
        · omega
      · intro hlt
        by_cases hfirst : c.stdout.length < output₁.length
        · exact .inl (.inr hfirst)
        · exact .inr (.inr (by omega))

/-- However often the pump is called, the two outputs are what the readers delivered, together within the limit. One
more call reads on until neither stream has more and says whether it added a byte, or fails at the first read whose bytes
do not fit. -/
theorem channel_output_exact (maximum : Nat) (stdout stderr : Nat → ReadResult) (c : ChannelOutput)
    (h : Pumped maximum stdout stderr c) : c.stdoutReader.results = stdout ∧ c.stderrReader.results = stderr ∧
      c.Exact maximum ∧ Pumps maximum c (pumpAvailablePair maximum c) := by
  have hstate : c.stdoutReader.results = stdout ∧ c.stderrReader.results = stderr ∧ c.Exact maximum := by
    induction h with
    | start => exact ⟨rfl, rfl, rfl, rfl, Nat.zero_le _⟩
    | call h hcall ih =>
      obtain ⟨hstdout, hstderr, hexact⟩ := ih
      have hpumps := hexact.pump
      rw [hcall] at hpumps
      cases hpumps with
      | returns hexact' hstdout' hstderr' _ _ => exact ⟨hstdout'.results.trans hstdout, hstderr'.results.trans hstderr, hexact'⟩
  exact ⟨hstate.1, hstate.2.1, hstate.2.2, hstate.2.2.pump⟩

/-- A stream that brings one byte, pauses and goes on with two more. -/
def hesitant : Nat → ReadResult
  | 0 => .data 1 []
  | 1 => .wouldBlock
  | _ => .data 2 [3]

theorem channel_output_exact_hesitant :
    let c : ChannelOutput := ⟨⟨hesitant, 2⟩, ⟨fun _ => .eof, 1⟩, [1], []⟩
    Pumped 2 hesitant (fun _ => .eof) c ∧ Pumps 2 c (pumpAvailablePair 2 c) := by
  intro c
  have hcall : pumpAvailablePair 2 ⟨⟨hesitant, 0⟩, ⟨fun _ => .eof, 0⟩, [], []⟩ = (.ok true, c) := by
    simp [pumpAvailablePair, drainAvailable, hesitant, ChannelReader.next, c]
  have hpumped : Pumped 2 hesitant (fun _ => .eof) c := .call .start hcall
  exact ⟨hpumped, (channel_output_exact 2 hesitant (fun _ => .eof) c hpumped).2.2.2⟩

end CYC
