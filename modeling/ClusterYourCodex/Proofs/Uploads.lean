import ClusterYourCodex.Lib.Tape
import ClusterYourCodex.Spec.Uploads
import ClusterYourCodex.Fleet.Frames
import ClusterYourCodex.Proofs.Runs

/-! What is stored of uploads is what was accepted. A depot is what uploads are for: a tape of blocks for
each stream of a run, and the artifacts of the run. A put that is accepted is in the depot already or is
put at its end, and the tables and objects of the store keep the depot through every other call. -/

namespace CYC

open Checked Relational

/-! ### The depot -/

structure ChunkUpload where
  runId : Uuid
  stream : String
  offset : Nat
  data : List UInt8
  deriving DecidableEq

structure ArtifactUpload where
  runId : Uuid
  id : Uuid
  name : String
  data : List UInt8
  deriving DecidableEq

inductive Upload where
  | chunk (upload : ChunkUpload)
  | artifact (upload : ArtifactUpload)
  deriving DecidableEq

namespace Upload

def data : Upload → List UInt8
  | chunk u => u.data
  | artifact u => u.data

def runId : Upload → Uuid
  | chunk u => u.runId
  | artifact u => u.runId

/-- The call that sends it. -/
def op (workerCredential runCredential : String) (leaseId : Uuid) : Upload → Op
  | chunk u => .putLogChunk workerCredential runCredential u.runId leaseId u.stream u.offset (bytesSha256 u.data) u.data
  | artifact u => .putArtifact workerCredential runCredential u.runId leaseId u.id u.name (bytesSha256 u.data) u.data

end Upload

structure Depot where
  logs : Uuid → String → List (List UInt8)
  artifacts : Uuid → List ArtifactUpload

namespace Depot

variable {D D' : Depot} {r : Uuid} {s : String} {u : Upload}

def empty : Depot := ⟨fun _ _ => [], fun _ => []⟩

def Holds (D : Depot) : Upload → Prop
  | .chunk u => Tape.At (D.logs u.runId u.stream) u.offset u.data
  | .artifact u => u ∈ D.artifacts u.runId

def append (D : Depot) (r : Uuid) (s : String) (data : List UInt8) : Depot :=
  { D with logs := Function.update D.logs r (Function.update (D.logs r) s (D.logs r s ++ [data])) }

def add (D : Depot) (a : ArtifactUpload) : Depot :=
  { D with artifacts := Function.update D.artifacts a.runId (D.artifacts a.runId ++ [a]) }

/-- The bytes of both streams of a run. -/
def logBytes (D : Depot) (r : Uuid) : Nat := (D.logs r "stdout").flatten.length + (D.logs r "stderr").flatten.length

def logChunks (D : Depot) (r : Uuid) : Nat := (D.logs r "stdout").length + (D.logs r "stderr").length

def artifactBytes (D : Depot) (r : Uuid) : Nat := ((D.artifacts r).map fun a => a.data.length).sum

/-- No block is empty, the two streams of a run and its artifacts are within the quotas, and an artifact's
identifier is its own. -/
structure Sound (D : Depot) : Prop where
  filled : ∀ r s, [] ∉ D.logs r s
  streams : ∀ r s, s ≠ "stdout" → s ≠ "stderr" → D.logs r s = []
  logBytes : ∀ r, D.logBytes r ≤ maxRunLogBytes
  logChunks : ∀ r, D.logChunks r ≤ maxRunLogChunks
  owner : ∀ r, ∀ a ∈ D.artifacts r, a.runId = r
  names : ∀ r, ∀ a ∈ D.artifacts r, validArtifactName a.name = true
  ids : ∀ r r', ∀ a ∈ D.artifacts r, ∀ a' ∈ D.artifacts r', a.id = a'.id → a = a'
  artifactBytes : ∀ r, D.artifactBytes r ≤ maxRunArtifactBytes
  artifactCount : ∀ r, (D.artifacts r).length ≤ maxRunArtifactCount

/-- A put that the depot accepts: what it holds already, or the next chunk of a stream or a new artifact
within the quota. -/
inductive Puts (D : Depot) : Upload → Depot → Prop
  | again {u : Upload} (held : D.Holds u) : Puts D u D
  | next {r : Uuid} {s : String} {data : List UInt8} (stream : s = "stdout" ∨ s = "stderr") (filled : data ≠ [])
      (bytes : D.logBytes r + data.length ≤ maxRunLogBytes) (chunks : D.logChunks r < maxRunLogChunks) :
      Puts D (.chunk ⟨r, s, (D.logs r s).flatten.length, data⟩) (D.append r s data)
  | new {a : ArtifactUpload} (name : validArtifactName a.name = true) (fresh : ∀ r, ∀ a' ∈ D.artifacts r, a'.id ≠ a.id)
      (bytes : D.artifactBytes a.runId + a.data.length ≤ maxRunArtifactBytes)
      (count : (D.artifacts a.runId).length < maxRunArtifactCount) : Puts D (.artifact a) (D.add a)

theorem sound_empty : empty.Sound where
  filled _ _ := List.not_mem_nil
  streams _ _ _ _ := rfl
  logBytes _ := Nat.zero_le _
  logChunks _ := Nat.zero_le _
  owner _ _ h := absurd h List.not_mem_nil
  names _ _ h := absurd h List.not_mem_nil
  ids _ _ _ h := absurd h List.not_mem_nil
  artifactBytes _ := Nat.zero_le _
  artifactCount _ := Nat.zero_le _

theorem not_holds_empty : ¬ empty.Holds u := by
  cases u with
  | chunk u => exact Tape.not_at_nil
  | artifact u => exact List.not_mem_nil

theorem logs_append (D : Depot) (r r' : Uuid) (s s' : String) (data : List UInt8) :
    (D.append r s data).logs r' s' = if r' = r ∧ s' = s then D.logs r s ++ [data] else D.logs r' s' := by
  simp only [append, Function.update_apply]
  by_cases hr : r' = r
  · subst hr
    simp [Function.update_apply]
  · simp [hr]

theorem artifacts_add (D : Depot) (a : ArtifactUpload) (r : Uuid) :
    (D.add a).artifacts r = if r = a.runId then D.artifacts a.runId ++ [a] else D.artifacts r :=
  Function.update_apply ..

theorem mem_artifacts_add {a a' : ArtifactUpload} : a' ∈ (D.add a).artifacts r ↔ a' ∈ D.artifacts r ∨ r = a.runId ∧ a' = a := by
  rw [artifacts_add]
  split_ifs with h
  · subst h
    simp
  · simp [h]

/-- A put adds what it puts and nothing else. -/
theorem Puts.holds_iff (h : D.Puts u D') (v : Upload) : D'.Holds v ↔ D.Holds v ∨ v = u := by
  cases h with
  | again held => exact ⟨.inl, fun hv => hv.elim id fun he => he ▸ held⟩
  | @next r s data =>
    cases v with
    | artifact v => exact ⟨.inl, fun hv => hv.resolve_right nofun⟩
    | chunk v =>
      obtain ⟨r', s', offset, block⟩ := v
      simp only [Holds, logs_append, Upload.chunk.injEq, ChunkUpload.mk.injEq]
      split_ifs with hkey
      · obtain ⟨rfl, rfl⟩ := hkey
        rw [Tape.at_snoc]
        simp only [true_and]
      · exact ⟨.inl, fun hv => hv.resolve_right fun ⟨hr, hs, _⟩ => hkey ⟨hr, hs⟩⟩
  | @new a =>
    cases v with
    | chunk v => exact ⟨.inl, fun hv => hv.resolve_right nofun⟩
    | artifact v =>
      simp only [Holds, mem_artifacts_add, Upload.artifact.injEq]
      exact or_congr_right ⟨And.right, fun h => ⟨congrArg ArtifactUpload.runId h, h⟩⟩

/-- Of the two streams, a chunk lengthens the one it is for. -/
theorem log_totals_append (hs : s = "stdout" ∨ s = "stderr") (data : List UInt8) (r' : Uuid) :
    (D.append r s data).logBytes r' = D.logBytes r' + (if r' = r then data.length else 0) ∧
      (D.append r s data).logChunks r' = D.logChunks r' + (if r' = r then 1 else 0) := by
  simp only [logBytes, logChunks, logs_append]
  by_cases hr : r' = r
  · subst hr
    rcases hs with rfl | rfl
    all_goals
      simp only [String.reduceEq, and_self, and_false, if_true, if_false, List.flatten_append, List.length_append,
        List.flatten_cons, List.flatten_nil, List.append_nil, List.length_cons, List.length_nil]
      omega
  · simp [hr]

theorem Puts.sound (h : D.Puts u D') (hs : D.Sound) : D'.Sound := by
  cases h with
  | again _ => exact hs
  | @next r s data stream filled bytes chunks =>
    have htotals := log_totals_append (D := D) (r := r) stream data
    refine { hs with filled := ?_, streams := ?_, logBytes := ?_, logChunks := ?_ }
    · intro r' s' hmem
      rw [logs_append] at hmem
      split_ifs at hmem with hkey
      · rcases List.mem_append.1 hmem with hold | hnew
        · exact hs.filled r s hold
        · exact filled (List.mem_singleton.1 hnew).symm
      · exact hs.filled r' s' hmem
    · intro r' s' hout herr
      have hkey : ¬ (r' = r ∧ s' = s) := by
        rintro ⟨-, rfl⟩
        exact stream.elim hout herr
      rw [logs_append, if_neg hkey]
      exact hs.streams r' s' hout herr
    · intro r'
      rw [(htotals r').1]
      split_ifs with hr
      · exact hr ▸ bytes
      · exact hs.logBytes r'
    · intro r'
      rw [(htotals r').2]
      split_ifs with hr
      · exact hr ▸ chunks
      · exact hs.logChunks r'
  | @new a name fresh bytes count =>
    refine { hs with owner := ?_, names := ?_, ids := ?_, artifactBytes := ?_, artifactCount := ?_ }
    · intro r a' ha'
      rcases mem_artifacts_add.1 ha' with hold | ⟨rfl, rfl⟩
      · exact hs.owner r a' hold
      · rfl
    · intro r a' ha'
      rcases mem_artifacts_add.1 ha' with hold | ⟨-, rfl⟩
      · exact hs.names r a' hold
      · exact name
    · intro r r' b hb b' hb' hid
      rcases mem_artifacts_add.1 hb with hold | ⟨-, rfl⟩
      · rcases mem_artifacts_add.1 hb' with hold' | ⟨-, rfl⟩
        · exact hs.ids r r' b hold b' hold' hid
        · exact absurd hid (fresh r b hold)
      · rcases mem_artifacts_add.1 hb' with hold' | ⟨-, rfl⟩
        · exact absurd hid.symm (fresh r' b' hold')
        · rfl
    · intro r
      unfold Depot.artifactBytes
      rw [artifacts_add]
      split_ifs with hr
      · rw [List.map_append, List.sum_append]
        exact bytes
      · exact hs.artifactBytes r
    · intro r
      rw [artifacts_add]
      split_ifs with hr
      · rw [List.length_append]
        exact count
      · exact hs.artifactCount r

/-- No stream is longer than the quota. -/
theorem Sound.length_le (hs : D.Sound) (r : Uuid) (s : String) : (D.logs r s).flatten.length ≤ maxRunLogBytes := by
  have hbytes := hs.logBytes r
  unfold Depot.logBytes at hbytes
  by_cases hout : s = "stdout"
  · subst hout
    omega
  · by_cases herr : s = "stderr"
    · subst herr
      omega
    · rw [hs.streams r s hout herr]
      exact Nat.zero_le _

end Depot

/-! ### Rows and objects -/

variable {env : Env} {db db' : Db} {D D' : Depot} {r : Uuid}

/-- The row of a block that lies at `offset`. -/
structure ChunkRow (objects : String → Option (List UInt8)) (offset : Nat) (row : LogChunkRow) (block : List UInt8) : Prop where
  offset : row.chunkOffset = offset
  length : row.chunkLength = block.length
  digest : row.sha256 = bytesSha256 block
  object : objects row.relativePath = some block
  created : OnCalendar row.createdAt

/-- The rows of a stream, in the order in which they were inserted, hold the blocks of a tape. -/
inductive OnTape (objects : String → Option (List UInt8)) : List LogChunkRow → List (List UInt8) → Prop
  | nil : OnTape objects [] []
  | snoc {rows : List LogChunkRow} {blocks : List (List UInt8)} {row : LogChunkRow} {block : List UInt8}
      (earlier : OnTape objects rows blocks) (last : ChunkRow objects blocks.flatten.length row block) :
      OnTape objects (rows ++ [row]) (blocks ++ [block])

section OnTape

variable {objects objects' : String → Option (List UInt8)} {rows : List LogChunkRow} {blocks : List (List UInt8)}
  {row : LogChunkRow} {block : List UInt8} {offset : Nat}

theorem ChunkRow.mono (h : ChunkRow objects offset row block)
    (hgrows : ∀ p b, objects p = some b → objects' p = some b) : ChunkRow objects' offset row block :=
  { h with object := hgrows _ _ h.object }

theorem OnTape.mono (h : OnTape objects rows blocks) (hgrows : ∀ p b, objects p = some b → objects' p = some b) :
    OnTape objects' rows blocks := by
  induction h with
  | nil => exact .nil
  | snoc _ last ih => exact .snoc ih (last.mono hgrows)

theorem OnTape.length (h : OnTape objects rows blocks) : rows.length = blocks.length := by
  induction h with
  | nil => rfl
  | snoc _ _ ih => simp [ih]

theorem OnTape.sum (h : OnTape objects rows blocks) :
    (rows.map LogChunkRow.chunkLength).sum = (blocks.flatten.length : Int) := by
  induction h with
  | nil => rfl
  | snoc _ last ih => simp [ih, last.length]

theorem OnTape.at_of_mem (h : OnTape objects rows blocks) (hrow : row ∈ rows) :
    ∃ offset block, Tape.At blocks offset block ∧ ChunkRow objects offset row block := by
  induction h with
  | nil => exact absurd hrow List.not_mem_nil
  | snoc _ last ih =>
    rcases List.mem_append.1 hrow with hold | hnew
    · obtain ⟨offset, block, hat, hstored⟩ := ih hold
      exact ⟨offset, block, Tape.at_snoc.2 (.inl hat), hstored⟩
    · rw [List.mem_singleton.1 hnew]
      exact ⟨_, _, Tape.at_snoc.2 (.inr ⟨rfl, rfl⟩), last⟩

theorem OnTape.mem_of_at (h : OnTape objects rows blocks) (hat : Tape.At blocks offset block) :
    ∃ row ∈ rows, ChunkRow objects offset row block := by
  induction h with
  | nil => exact absurd hat Tape.not_at_nil
  | snoc _ last ih =>
    rcases Tape.at_snoc.1 hat with hold | ⟨rfl, rfl⟩
    · obtain ⟨row, hrow, hstored⟩ := ih hold
      exact ⟨row, List.mem_append_left _ hrow, hstored⟩
    · exact ⟨_, List.mem_append_right _ (List.mem_singleton.2 rfl), last⟩

/-- Rows are inserted in the order of their offsets. -/
theorem OnTape.sorted (h : OnTape objects rows blocks) : rows.Pairwise fun a b => a.chunkOffset ≤ b.chunkOffset := by
  induction h with
  | nil => exact .nil
  | snoc earlier last ih =>
    refine List.pairwise_append.2 ⟨ih, List.pairwise_singleton _ _, ?_⟩
    intro a ha b hb
    rw [List.mem_singleton.1 hb, last.offset]
    obtain ⟨offset, block, hat, hstored⟩ := earlier.at_of_mem ha
    rw [hstored.offset]
    have := hat.le
    omega

theorem OnTape.read (h : OnTape db.ledger.objects rows blocks) :
    rows.foldlM (readLogChunk db) [] = .ok blocks.flatten := by
  induction h with
  | nil => rfl
  | snoc _ last ih =>
    rw [List.foldlM_append, bind_eq_ok]
    refine ⟨_, ih, ?_⟩
    simp only [List.foldlM_cons, List.foldlM_nil, bind_eq_ok, pure_eq_ok, readLogChunk, ensure_eq_ok,
      readGeneratedObject_eq_ok, last.offset, last.length, last.digest, asU64, Int.toNat_natCast]
    exact ⟨_, ⟨(), by simp, _, last.object, (), by simp, rfl⟩, by simp⟩

end OnTape

/-- The row of an artifact and its object. -/
structure Filed (objects : String → Option (List UInt8)) (row : ArtifactRow) (a : ArtifactUpload) : Prop where
  id : row.id = a.id
  runId : row.runId = a.runId
  name : row.name = a.name
  size : row.size = a.data.length
  digest : row.sha256 = bytesSha256 a.data
  object : objects row.relativePath = some a.data
  created : OnCalendar row.createdAt

variable {objects : String → Option (List UInt8)} {rows : List ArtifactRow} {as : List ArtifactUpload} {n : Nat}

theorem exists_of_forall₂ {α β : Type} {R : α → β → Prop} {a : α} {l : List α} {l' : List β} (h : List.Forall₂ R l l')
    (ha : a ∈ l) : ∃ b ∈ l', R a b := by
  induction h with
  | nil => exact absurd ha List.not_mem_nil
  | @cons a' b l l' hfirst _ ih =>
    rcases List.mem_cons.1 ha with rfl | ha
    · exact ⟨b, List.mem_cons_self, hfirst⟩
    · obtain ⟨b', hb', hrest⟩ := ih ha
      exact ⟨b', List.mem_cons_of_mem b hb', hrest⟩

theorem filed_sum (h : List.Forall₂ (Filed objects) rows as) :
    (rows.map ArtifactRow.size).sum = ((as.map fun a => a.data.length).sum : Nat) := by
  induction h with
  | nil => rfl
  | cons hfiled _ ih => simp [ih, hfiled.size]

/-- The rows of one stream of a run. -/
def Db.streamRows (db : Db) (r : Uuid) (s : String) : List LogChunkRow := (db.chunksOf r).filter fun c => c.stream = s

/-- The tables and objects hold the depot. -/
structure Db.Keeps (db : Db) (D : Depot) : Prop where
  logs : ∀ r s, OnTape db.ledger.objects (db.streamRows r s) (D.logs r s)
  artifacts : ∀ r, List.Forall₂ (Filed db.ledger.objects) (db.artifactsOf r) (D.artifacts r)

theorem keeps_empty (seed : String) : (Db.empty seed).Keeps .empty := ⟨fun _ _ => .nil, fun _ => .nil⟩

/-- The same rows with objects that are still there. -/
theorem Db.Keeps.grow (hk : db.Keeps D) (hchunks : ∀ r, db'.chunksOf r = db.chunksOf r)
    (hartifacts : ∀ r, db'.artifactsOf r = db.artifactsOf r)
    (hgrows : ∀ p b, db.ledger.objects p = some b → db'.ledger.objects p = some b) : db'.Keeps D := by
  constructor
  · intro r s
    unfold Db.streamRows
    rw [hchunks]
    exact (hk.logs r s).mono hgrows
  · intro r
    rw [hartifacts]
    exact (hk.artifacts r).imp fun _ _ hfiled => { hfiled with object := hgrows _ _ hfiled.object }

theorem keeps_of_uploadsOf (hk : db.Keeps D) (h : ∀ r, db'.uploadsOf r = db.uploadsOf r) : db'.Keeps D := by
  have hobjects : db'.ledger.objects = db.ledger.objects := congrArg (fun u => u.2.2) (h .nil)
  exact hk.grow (fun r => congrArg Prod.fst (h r)) (fun r => congrArg (fun u => u.2.1) (h r)) fun p b hb => by rw [hobjects, hb]

theorem asI64_of_le (h : n ≤ maxRunLogBytes) : asI64 n = n := by
  simp only [asI64, i64Max, maxRunLogBytes] at *
  omega

theorem eq_of_asI64 {m : Nat} (h : n ≤ maxRunLogBytes) (heq : (n : Int) = asI64 m) : n = m := by
  simp only [asI64, i64Max, maxRunLogBytes] at *
  omega

namespace Db.Keeps

variable (hk : db.Keeps D) (hs : D.Sound) {s : String} {offset : Nat} {block : List UInt8}
include hk

theorem streamChunks (r : Uuid) (s : String) : db.streamChunks r s = db.streamRows r s :=
  (hk.logs r s).sorted.insertionSort_eq

include hs

/-- A run's rows are those of its two streams. -/
theorem stream (row : LogChunkRow) (hrow : row ∈ db.chunksOf r) : row.stream = "stdout" ∨ row.stream = "stderr" := by
  by_contra hneither
  rw [not_or] at hneither
  have hlogs := hk.logs r row.stream
  rw [hs.streams r row.stream hneither.1 hneither.2] at hlogs
  have hnone := List.eq_nil_of_length_eq_zero hlogs.length
  have hmem : row ∈ db.streamRows r row.stream := List.mem_filter.2 ⟨hrow, decide_eq_true rfl⟩
  rw [hnone] at hmem
  exact List.not_mem_nil hmem

theorem chunksOf_perm (r : Uuid) : (db.streamRows r "stdout" ++ db.streamRows r "stderr").Perm (db.chunksOf r) := by
  have hother : db.streamRows r "stderr" = (db.chunksOf r).filter fun c => !decide (c.stream = "stdout") := by
    refine List.filter_congr fun row hrow => ?_
    rcases hk.stream hs row hrow with h | h <;> simp [h]
  rw [hother]
  exact List.filter_append_perm ..

theorem logBytes (r : Uuid) : ((db.chunksOf r).map LogChunkRow.chunkLength).sum = (D.logBytes r : Int) := by
  rw [← ((hk.chunksOf_perm hs r).map LogChunkRow.chunkLength).sum_eq, List.map_append, List.sum_append,
    (hk.logs r _).sum, (hk.logs r _).sum]
  rfl

theorem logChunks (r : Uuid) : (db.chunksOf r).length = D.logChunks r := by
  rw [← (hk.chunksOf_perm hs r).length_eq, List.length_append, (hk.logs r _).length, (hk.logs r _).length]
  rfl

theorem getLogChunk_of_at (hat : Tape.At (D.logs r s) offset block) :
    ∃ chunk, getLogChunk db r s offset = .ok (some chunk) ∧ chunk.runId = r ∧ chunk.stream = s ∧ chunk.offset = offset ∧
      chunk.length = block.length ∧ chunk.sha256 = bytesSha256 block := by
  obtain ⟨row, hrow, hstored⟩ := (hk.logs r s).mem_of_at hat
  obtain ⟨hchunk, hstream⟩ := List.mem_filter.1 hrow
  obtain ⟨hmem, hrun⟩ := List.mem_filter.1 hchunk
  have hoffset : row.chunkOffset = asI64 offset := by
    rw [hstored.offset, asI64_of_le (Nat.le_trans (Nat.le_of_add_right_le hat.le) (hs.length_le r s))]
  have hfind : db.logChunks.find (fun c => c.runId = r && c.stream = s && c.chunkOffset = asI64 offset) = some row := by
    refine Table.find_of_mem (fun a b ha hb => ?_) hmem ?_
    · simp only [Bool.and_eq_true, decide_eq_true_eq] at ha hb
      simp [Schema.clash, ha, hb]
    · simpa [hoffset] using And.intro (of_decide_eq_true hrun) (of_decide_eq_true hstream)
  refine ⟨⟨r, s, offset, asU64 row.chunkLength, row.sha256, .ofTimestamp row.createdAt⟩, ?_, rfl, rfl, rfl, ?_, hstored.digest⟩
  · unfold getLogChunk
    rw [hfind]
    simp only [bind_eq_ok, timestamp_eq_ok, pure_eq_ok]
    exact ⟨_, ⟨hstored.created, rfl⟩, rfl⟩
  · simp only [hstored.length, asU64, Int.toNat_natCast]

theorem at_of_getLogChunk {chunk : LogChunk} (h : getLogChunk db r s offset = .ok (some chunk)) :
    ∃ block, Tape.At (D.logs r s) offset block ∧ chunk.length = block.length ∧ chunk.sha256 = bytesSha256 block := by
  unfold getLogChunk at h
  split at h
  · cases h
  · rename_i row hfind
    obtain ⟨hmem, hrow⟩ := Table.find_some hfind
    simp only [Bool.and_eq_true, decide_eq_true_eq] at hrow
    obtain ⟨⟨hrun, hstream⟩, hoffset⟩ := hrow
    simp only [bind_eq_ok, pure_eq_ok] at h
    obtain ⟨_, -, hchunk⟩ := h
    cases hchunk
    have hrows : row ∈ db.streamRows r s :=
      List.mem_filter.2 ⟨List.mem_filter.2 ⟨hmem, decide_eq_true hrun⟩, decide_eq_true hstream⟩
    obtain ⟨offset', block, hat, hstored⟩ := (hk.logs r s).at_of_mem hrows
    have hbound := Nat.le_trans (Nat.le_of_add_right_le hat.le) (hs.length_le r s)
    have heq : offset' = offset := eq_of_asI64 hbound (hstored.offset.symm.trans hoffset)
    refine ⟨block, heq ▸ hat, ?_, hstored.digest⟩
    simp only [hstored.length, asU64, Int.toNat_natCast]

omit hs in
/-- The artifact that an upload stored is found by its identifier. -/
theorem find_artifact {a : ArtifactUpload} (ha : a ∈ D.artifacts r) :
    ∃ row, db.artifacts.find (fun x => x.id = a.id) = some row ∧ Filed db.ledger.objects row a := by
  obtain ⟨row, hrow, hfiled⟩ := exists_of_forall₂ (hk.artifacts r).flip ha
  refine ⟨row, Table.find_of_mem (fun x y hx hy => ?_) (List.mem_filter.1 hrow).1 (decide_eq_true hfiled.id), hfiled⟩
  exact decide_eq_true ((of_decide_eq_true hx).trans (of_decide_eq_true hy).symm)

omit hs in
theorem getArtifact_of_mem {a : ArtifactUpload} (ha : a ∈ D.artifacts r) :
    ∃ stored, getArtifact db a.id = .ok (some stored) ∧ stored.id = a.id ∧ stored.runId = a.runId ∧ stored.name = a.name ∧
      stored.size = a.data.length ∧ stored.sha256 = bytesSha256 a.data := by
  obtain ⟨row, hfind, hfiled⟩ := hk.find_artifact ha
  refine ⟨⟨a.id, row.runId, row.name, asU64 row.size, row.sha256, .ofTimestamp row.createdAt⟩, ?_, rfl, hfiled.runId,
    hfiled.name, ?_, hfiled.digest⟩
  · unfold getArtifact
    rw [hfind]
    simp only [bind_eq_ok, timestamp_eq_ok, pure_eq_ok]
    exact ⟨_, ⟨hfiled.created, rfl⟩, rfl⟩
  · simp only [hfiled.size, asU64, Int.toNat_natCast]

theorem mem_of_getArtifact {id : Uuid} {stored : StoredArtifact} (h : getArtifact db id = .ok (some stored)) :
    ∃ a ∈ D.artifacts a.runId, a.id = id ∧ stored.runId = a.runId ∧ stored.name = a.name ∧
      stored.size = a.data.length ∧ stored.sha256 = bytesSha256 a.data := by
  unfold getArtifact at h
  split at h
  · cases h
  · rename_i row hfind
    obtain ⟨hmem, hid⟩ := Table.find_some hfind
    simp only [bind_eq_ok, pure_eq_ok] at h
    obtain ⟨_, -, hstored⟩ := h
    cases hstored
    have hrow : row ∈ db.artifactsOf row.runId := List.mem_filter.2 ⟨hmem, decide_eq_true rfl⟩
    obtain ⟨a, ha, hfiled⟩ := exists_of_forall₂ (hk.artifacts row.runId) hrow
    refine ⟨a, by rw [hs.owner row.runId a ha]; exact ha, hfiled.id.symm.trans (of_decide_eq_true hid), hfiled.runId,
      hfiled.name, ?_, hfiled.digest⟩
    simp only [hfiled.size, asU64, Int.toNat_natCast]

end Db.Keeps

/-! ### Puts -/

variable {name path runCredential s sha256 workerCredential : String} {bytes data : List UInt8} {offset : Nat}
  {chunk : LogChunk} {artifactId leaseId : Uuid} {artifact : StoredArtifact}

theorem writeImmutableObject_stored
    (h : writeImmutableObject db path bytes sha256 = .ok db') : db'.ledger.objects path = some bytes := by
  unfold writeImmutableObject at h
  split at h
  · rename_i object hfind
    split at h
    · rename_i hsame
      cases h
      simp only [Bool.and_eq_true, decide_eq_true_eq] at hsame
      show (db.objects.find fun o => o.path = path).map ObjectRow.bytes = some bytes
      rw [hfind, Option.map_some, hsame.2]
    · cases h
  · simp only [bind_eq_ok, pure_eq_ok, inserted_eq_ok] at h
    obtain ⟨objects, hinsert, rfl⟩ := h
    have hclash : ∀ a b : ObjectRow, a.path = b.path → Schema.clash a b = true := fun a b hab => by simp [Schema.clash, hab]
    simp only [Db.ledger, (Table.lookup_insert hclash hinsert).2, Function.update_self, Option.map_some]

/-- Writing an object leaves the rows and every object that is there. -/
theorem keeps_writeImmutableObject (hk : db.Keeps D)
    (h : writeImmutableObject db path bytes sha256 = .ok db') : db'.Keeps D := by
  obtain ⟨hledger, hgrows⟩ := writeImmutableObject_eq_ok h
  have hrows : ∀ r, db'.rowsOf r = db.rowsOf r := fun r => congrFun (congrArg Ledger.rows hledger) r
  exact hk.grow (fun r => congrArg RunRows.chunks (hrows r)) (fun r => congrArg RunRows.artifacts (hrows r)) hgrows

/-- A row for the end of a stream keeps the depot with one more block. -/
theorem keeps_logChunk {t : Table LogChunkRow} {row : LogChunkRow} (hk : db.Keeps D)
    (hinsert : db.logChunks.insert row = some t)
    (hrow : ChunkRow db.ledger.objects (D.logs row.runId row.stream).flatten.length row data) :
    Db.Keeps { db with logChunks := t } (D.append row.runId row.stream data) := by
  refine ⟨fun r s => ?_, hk.artifacts⟩
  have hrows : Db.streamRows { db with logChunks := t } r s =
      db.streamRows r s ++ if r = row.runId ∧ s = row.stream then [row] else [] := by
    simp only [Db.streamRows, Db.chunksOf, (Table.insert_eq_some hinsert).1, List.filter_append, List.filter_filter]
    congr 1
    by_cases hkey : r = row.runId ∧ s = row.stream
    · simp [hkey]
    · simp only [if_neg hkey]
      refine List.filter_eq_nil_iff.2 fun a ha => ?_
      rw [List.mem_singleton.1 ha]
      simp only [Bool.and_eq_true, decide_eq_true_eq]
      rintro ⟨rfl, rfl⟩
      exact hkey ⟨rfl, rfl⟩
  rw [hrows, Depot.logs_append]
  split_ifs with hkey
  · obtain ⟨rfl, rfl⟩ := hkey
    exact .snoc (hk.logs _ _) hrow
  · rw [List.append_nil]
    exact hk.logs r s

theorem appendLogChunk_puts (hk : db.Keeps D)
    (hs : D.Sound) (hstream : s = "stdout" ∨ s = "stderr") (hdata : data ≠ []) (hdigest : bytesSha256 data = sha256)
    (h : appendLogChunk env db r s offset sha256 data = .ok (db', chunk)) :
    ∃ D', D.Puts (.chunk ⟨r, s, offset, data⟩) D' ∧ db'.Keeps D' := by
  simp only [appendLogChunk, bind_eq_ok, pair_eq_ok, inserted_eq_ok, ensure_eq_ok, Bool.and_eq_true,
    decide_eq_true_eq] at h
  obtain ⟨total, htotal, _, ⟨hbytes, hcount⟩, next, hnext, _, hoffset, stored, -, db₁, hwrite, chunks, hinsert, rfl, -⟩ := h
  have htotal' : total = D.logBytes r := (sumColumn_eq_ok htotal).trans (hk.logBytes hs r)
  have hnext' : next = (D.logs r s).flatten.length := (sumColumn_eq_ok hnext).trans (hk.logs r s).sum
  have hoffset' : offset = (D.logs r s).flatten.length := by
    rw [← hoffset, hnext', asU64, Int.toNat_natCast]
  have hquota : D.logBytes r + data.length ≤ maxRunLogBytes := by
    simp only [htotal', asU64, Int.toNat_natCast, satU64, u64Max, maxRunLogBytes] at hbytes ⊢
    omega
  rw [hk.logChunks hs r] at hcount
  subst hoffset'
  refine ⟨_, .next hstream hdata hquota hcount, ?_⟩
  refine keeps_logChunk (keeps_writeImmutableObject hk hwrite) hinsert ⟨?_, ?_, hdigest.symm, ?_, env.onCalendar⟩
  · exact asI64_of_le (hs.length_le r s)
  · exact asI64_of_le (by omega)
  · exact writeImmutableObject_stored hwrite

theorem keeps_artifact {t : Table ArtifactRow} {row : ArtifactRow} {a : ArtifactUpload} (hk : db.Keeps D)
    (hinsert : db.artifacts.insert row = some t) (hfiled : Filed db.ledger.objects row a) :
    Db.Keeps { db with artifacts := t } (D.add a) := by
  refine ⟨hk.logs, fun r => ?_⟩
  have hrows : Db.artifactsOf { db with artifacts := t } r = db.artifactsOf r ++ if r = row.runId then [row] else [] := by
    simp only [Db.artifactsOf, (Table.insert_eq_some hinsert).1, List.filter_append]
    congr 1
    by_cases hkey : r = row.runId
    · simp [hkey]
    · simp [hkey, Ne.symm hkey]
  rw [hrows, Depot.artifacts_add, hfiled.runId]
  split_ifs with hkey
  · subst hkey
    exact List.rel_append (hk.artifacts _) (.cons hfiled .nil)
  · rw [List.append_nil]
    exact hk.artifacts r

theorem addArtifact_puts (hk : db.Keeps D) (hname : validArtifactName name = true) (hdigest : bytesSha256 data = sha256)
    (hfresh : ∀ r, ∀ a ∈ D.artifacts r, a.id ≠ artifactId)
    (h : addArtifact env db r artifactId name sha256 data = .ok (db', artifact)) :
    ∃ D', D.Puts (.artifact ⟨r, artifactId, name, data⟩) D' ∧ db'.Keeps D' := by
  simp only [addArtifact, bind_eq_ok, pair_eq_ok, inserted_eq_ok, ensure_eq_ok, Bool.and_eq_true,
    decide_eq_true_eq] at h
  obtain ⟨total, htotal, _, ⟨hbytes, hcount⟩, stored, -, db₁, hwrite, artifacts, hinsert, rfl, -⟩ := h
  have htotal' : total = D.artifactBytes r := (sumColumn_eq_ok htotal).trans (filed_sum (hk.artifacts r))
  have hquota : D.artifactBytes r + data.length ≤ maxRunArtifactBytes := by
    simp only [htotal', asU64, Int.toNat_natCast, satU64, u64Max, maxRunArtifactBytes] at hbytes ⊢
    omega
  rw [(hk.artifacts r).length_eq] at hcount
  refine ⟨_, .new hname hfresh hquota hcount, ?_⟩
  refine keeps_artifact (keeps_writeImmutableObject hk hwrite) hinsert
    ⟨rfl, rfl, rfl, ?_, hdigest.symm, writeImmutableObject_stored hwrite, env.onCalendar⟩
  simp only [asI64, i64Max, maxRunArtifactBytes] at hquota ⊢
  omega

/-- Maintenance and authorization leave what is stored of uploads. -/
theorem keeps_of_idle (hk : db.Keeps D) (h : db'.uploaded = db.uploaded) : db'.Keeps D :=
  keeps_of_uploadsOf hk fun _ => uploadsOf_of_uploaded h

theorem uploaded_authorized {db₁ db₂ : Db} {n : Nat} {nodeId : Uuid}
    {now : Int} (hexpire : expireLeases env db now = .ok (db₁, n))
    (hauth : authorizeRunTx db₁ workerCredential runCredential r leaseId now = .ok (db₂, nodeId)) :
    db₂.uploaded = db.uploaded :=
  (uploaded_of_jobTables (jobTables_authorizeRunTx hauth)).trans (congrArg Prod.snd (apart_expireLeases hexpire))

/-- The store keeps a sound depot of bytes that are in use, and tells them apart by their digests. -/
structure Stocked (used : Set (List UInt8)) (db : Db) (D : Depot) : Prop where
  keeps : db.Keeps D
  sound : D.Sound
  within : ∀ u, D.Holds u → u.data ∈ used
  apart : Set.InjOn bytesSha256 used

variable {used : Set (List UInt8)}

theorem putLogChunk_puts (hk : Stocked used db D) (hused : data ∈ used)
    (h : putLogChunk env db workerCredential runCredential r leaseId s offset sha256 data = .ok (db', chunk)) :
    ∃ D', D.Puts (.chunk ⟨r, s, offset, data⟩) D' ∧ db'.Keeps D' := by
  simp only [putLogChunk, bind_eq_ok, Prod.exists, ensure_eq_ok, Bool.and_eq_true, Bool.or_eq_true, decide_eq_true_eq] at h
  obtain ⟨_, ⟨⟨hstream, -⟩, hdata⟩, _, hdigest, db₁, n, hexpire, db₂, _, hauth, existing, hget, h⟩ := h
  have hk₂ := keeps_of_idle hk.keeps (uploaded_authorized hexpire hauth)
  cases existing with
  | none => exact appendLogChunk_puts hk₂ hk.sound hstream (by simpa using hdata) hdigest h
  | some existing =>
    obtain ⟨block, hat, -, hsha⟩ := hk₂.at_of_getLogChunk hk.sound hget
    simp only at h
    split at h
    · rename_i hsame
      cases h
      have hblock : block = data :=
        hk.apart (hk.within (.chunk ⟨r, s, offset, block⟩) hat) hused (hsha.symm.trans (hsame.1.trans hdigest.symm))
      exact ⟨D, .again (hblock ▸ hat), hk₂⟩
    · cases h

theorem putArtifact_puts (hk : Stocked used db D) (hused : data ∈ used)
    (h : putArtifact env db workerCredential runCredential r leaseId artifactId name sha256 data = .ok (db', artifact)) :
    ∃ D', D.Puts (.artifact ⟨r, artifactId, name, data⟩) D' ∧ db'.Keeps D' := by
  simp only [putArtifact, bind_eq_ok, Prod.exists, ensure_eq_ok, Bool.and_eq_true, decide_eq_true_eq] at h
  obtain ⟨_, ⟨hname, -⟩, _, hdigest, db₁, n, hexpire, db₂, _, hauth, existing, hget, h⟩ := h
  have hk₂ := keeps_of_idle hk.keeps (uploaded_authorized hexpire hauth)
  cases existing with
  | none =>
    refine addArtifact_puts hk₂ hname hdigest (fun r' a ha hid => ?_) h
    obtain ⟨stored, hstored, -⟩ := hk₂.getArtifact_of_mem ha
    rw [hid, hget] at hstored
    cases hstored
  | some existing =>
    obtain ⟨a, ha, rfl, hrun, hnamed, -, hsha⟩ := hk₂.mem_of_getArtifact hk.sound hget
    simp only at h
    split at h
    · rename_i hsame
      cases h
      obtain ⟨⟨⟨hr, hdigest'⟩, -⟩, hn⟩ := hsame
      have hdata : a.data = data := hk.apart (hk.within (.artifact a) ha) hused (hsha.symm.trans (hdigest'.trans hdigest.symm))
      have heq : a = ⟨r, a.id, name, data⟩ := by
        rw [← hdata, ← hr, ← hn, hrun, hnamed]
      exact ⟨D, .again (heq ▸ ha), hk₂⟩
    · cases h

/-! ### Histories -/

/-- What a call uploads. -/
def Op.upload : Op → Option Upload
  | .putLogChunk _ _ runId _ stream offset _ data => some (.chunk ⟨runId, stream, offset, data⟩)
  | .putArtifact _ _ runId _ artifactId name _ data => some (.artifact ⟨runId, artifactId, name, data⟩)
  | _ => none

/-- The upload of a call that the store accepts. -/
def Db.accepted (db : Db) (call : Call) : Option Upload :=
  if (exec call.env db call.op).isOk then call.op.upload else none

def acceptedUploads (seed : String) (calls : List Call) : List Upload :=
  History.emitted step Db.accepted (.empty seed) calls

theorem exec_puts {op : Op} {answer : Answer} (hk : Stocked used db D)
    (hused : ∀ u, op.upload = some u → u.data ∈ used) (h : exec env db op = .ok (db', answer)) :
    ∃ D', db'.Keeps D' ∧ (op.upload = none → D' = D) ∧ ∀ u, op.upload = some u → D.Puts u D' := by
  cases hup : op.uploadsFor with
  | none =>
    refine ⟨D, keeps_of_uploadsOf hk.keeps fun r => exec_uploadsOf h hup, fun _ => rfl, fun u hu => ?_⟩
    cases op with
    | putLogChunk | putArtifact => cases hup
    | _ => cases hu
  | some r =>
    cases op with
    | putLogChunk =>
      simp only [exec, answering_eq_ok] at h
      obtain ⟨_, h, -⟩ := h
      obtain ⟨D', hputs, hk'⟩ := putLogChunk_puts hk (hused _ rfl) h
      exact ⟨D', hk', by rintro ⟨⟩, fun u hu => by cases hu; exact hputs⟩
    | putArtifact =>
      simp only [exec, answering_eq_ok] at h
      obtain ⟨_, h, -⟩ := h
      obtain ⟨D', hputs, hk'⟩ := putArtifact_puts hk (hused _ rfl) h
      exact ⟨D', hk', by rintro ⟨⟩, fun u hu => by cases hu; exact hputs⟩
    | _ => cases hup

/-- A call adds to the depot what it uploads and the store accepts. -/
theorem step_keeps {call : Call} (hk : Stocked used db D) (hused : ∀ u, call.op.upload = some u → u.data ∈ used) :
    ∃ D', Stocked used (step db call) D' ∧ ∀ u, D'.Holds u ↔ D.Holds u ∨ db.accepted call = some u := by
  cases hexec : exec call.env db call.op with
  | error e =>
    refine ⟨D, by simpa [step, hexec] using hk, fun u => ?_⟩
    simp [Db.accepted, hexec, Except.isOk, Except.toBool]
  | ok result =>
    obtain ⟨db', answer⟩ := result
    obtain ⟨D', hk', hsame, hputs⟩ := exec_puts hk hused hexec
    have haccepted : db.accepted call = call.op.upload := by
      simp [Db.accepted, hexec, Except.isOk, Except.toBool]
    rw [step_eq hexec, haccepted]
    cases hup : call.op.upload with
    | none => exact ⟨D, { hk with keeps := hsame hup ▸ hk' }, by simp⟩
    | some u =>
      have hput := hputs u hup
      refine ⟨D', ⟨hk', hput.sound hk.sound, fun v hv => ?_, hk.apart⟩, fun v => ?_⟩
      · rcases (hput.holds_iff v).1 hv with hold | rfl
        · exact hk.within v hold
        · exact hused v hup
      · rw [hput.holds_iff, Option.some.injEq, eq_comm]

/-- By induction on the calls, for any depot that the store keeps at their start. -/
theorem run_keeps {calls : List Call} (hk : Stocked used db D)
    (hused : ∀ call ∈ calls, ∀ u, call.op.upload = some u → u.data ∈ used) :
    ∃ D', Stocked used (History.after step db calls) D' ∧
      ∀ u, D'.Holds u ↔ D.Holds u ∨ u ∈ History.emitted step Db.accepted db calls := by
  induction calls generalizing db D with
  | nil => exact ⟨D, hk, by simp [History.emitted]⟩
  | cons call calls ih =>
    obtain ⟨D₁, hk₁, hholds₁⟩ := step_keeps hk (hused call List.mem_cons_self)
    obtain ⟨D', hk', hholds⟩ := ih hk₁ fun c hc => hused c (List.mem_cons_of_mem call hc)
    refine ⟨D', hk', fun u => ?_⟩
    rw [hholds, hholds₁, History.emitted, List.mem_append, Option.mem_toList, or_assoc]

/-! ### What the store answers -/

section Answers

variable {workerCredential runCredential : String} {leaseId : Uuid} {u : Upload}

theorem validSha256_bytesSha256 (data : List UInt8) : validSha256 (bytesSha256 data) = true := isLowercaseSha256_hex _

/-- The answer names the upload, its length and its digest. -/
def Answer.Acknowledges : Answer → Upload → Prop
  | .chunk c, .chunk u => c.runId = u.runId ∧ c.stream = u.stream ∧ c.offset = u.offset ∧ c.length = u.data.length ∧
      c.sha256 = bytesSha256 u.data
  | .artifact a, .artifact u => a.id = u.id ∧ a.runId = u.runId ∧ a.name = u.name ∧ a.size = u.data.length ∧
      a.sha256 = bytesSha256 u.data
  | _, _ => False

/-- What the depot holds is acknowledged when it is sent again by the worker of the run, and nothing is written
for it. -/
theorem exec_again {db₁ db₂ : Db} {n : Nat} {nodeId : Uuid} (hk : db.Keeps D) (hs : D.Sound) (hu : D.Holds u)
    (hexpire : expireLeases env db env.now.timestamp = .ok (db₁, n))
    (hauth : authorizeRunTx db₁ workerCredential runCredential u.runId leaseId env.now.timestamp = .ok (db₂, nodeId)) :
    ∃ answer, exec env db (u.op workerCredential runCredential leaseId) = .ok (db₂, answer) ∧ answer.Acknowledges u := by
  have hk₂ := keeps_of_idle hk (uploaded_authorized hexpire hauth)
  cases u with
  | chunk u =>
    obtain ⟨chunk, hget, hrun, hstream, hoffset, hlength, hsha⟩ := hk₂.getLogChunk_of_at hs hu
    refine ⟨.chunk chunk, ?_, hrun, hstream, hoffset, hlength, hsha⟩
    have hknown : u.stream = "stdout" ∨ u.stream = "stderr" := by
      by_contra hneither
      rw [not_or] at hneither
      have hempty := hs.streams u.runId u.stream hneither.1 hneither.2
      rw [Depot.Holds, hempty] at hu
      exact Tape.not_at_nil hu
    have hdata : u.data ≠ [] := fun hempty => hs.filled u.runId u.stream (hempty ▸ hu.mem)
    simp only [Upload.op, exec, answering_eq_ok, putLogChunk, bind_eq_ok, Prod.exists, ensure_eq_ok, Bool.and_eq_true,
      Bool.or_eq_true, decide_eq_true_eq]
    refine ⟨chunk, ⟨(), ⟨⟨hknown, validSha256_bytesSha256 _⟩, by simpa using hdata⟩, (), trivial, db₁, n, hexpire, db₂, nodeId,
      hauth, some chunk, hget, ?_⟩, rfl⟩
    simp [hsha, hlength]
  | artifact u =>
    obtain ⟨stored, hget, hid, hrun, hname, hsize, hsha⟩ := hk₂.getArtifact_of_mem hu
    refine ⟨.artifact stored, ?_, hid, hrun, hname, hsize, hsha⟩
    simp only [Upload.op, exec, answering_eq_ok, putArtifact, bind_eq_ok, Prod.exists, ensure_eq_ok, Bool.and_eq_true,
      decide_eq_true_eq]
    refine ⟨stored, ⟨(), ⟨hs.names _ _ hu, validSha256_bytesSha256 _⟩, (), trivial, db₁, n, hexpire, db₂, nodeId, hauth,
      some stored, hget, ?_⟩, rfl⟩
    simp [hrun, hname, hsize, hsha]

/-- Two uploads for one place: of a stream, or of the artifacts. -/
def Upload.SamePlace : Upload → Upload → Prop
  | .chunk u, .chunk v => u.runId = v.runId ∧ u.stream = v.stream ∧ u.offset = v.offset
  | .artifact u, .artifact v => u.id = v.id
  | _, _ => False

/-- Other bytes are not accepted for the place of what the depot holds. -/
theorem refused_of_differs {op : Op} {v : Upload} (hk : Stocked used db D) (hu : D.Holds u)
    (hop : op.upload = some v) (hv : v.data ∈ used) (hplace : v.SamePlace u) (hdata : v.data ≠ u.data) : ∃ e, exec env db op = .error e := by
  cases hexec : exec env db op with
  | error e => exact ⟨e, rfl⟩
  | ok result =>
    exfalso
    obtain ⟨db', answer⟩ := result
    obtain ⟨D', -, -, hputs⟩ := exec_puts hk (fun w hw' => by rw [hop] at hw'; cases hw'; exact hv) hexec
    have hput := hputs v hop
    have hs' := hput.sound hk.sound
    have hholdsU := (hput.holds_iff u).2 (.inl hu)
    have hholdsV := (hput.holds_iff v).2 (.inr rfl)
    cases u with
    | chunk u =>
      cases v with
      | chunk v =>
        obtain ⟨hrun, hstream, hoffset⟩ := hplace
        simp only [Depot.Holds, hrun, hstream, hoffset] at hholdsU hholdsV
        exact hdata (hholdsV.unique (hs'.filled _ _) hholdsU)
      | artifact v => exact hplace
    | artifact u =>
      cases v with
      | chunk v => exact hplace
      | artifact v => exact hdata (congrArg ArtifactUpload.data (hs'.ids _ _ v hholdsV u hholdsU hplace))

theorem readLog_eq {id : Uuid} {stored : StoredJob} {s : String} (hk : db.Keeps D)
    (hget : getJobPreferJobId db id = .ok stored) (hstream : s = "stdout" ∨ s = "stderr") :
    readLog db id s = .ok (D.logs stored.run.id s).flatten := by
  simp only [readLog, bind_eq_ok, ensure_eq_ok, Bool.or_eq_true, decide_eq_true_eq]
  exact ⟨(), hstream, stored, hget, by rw [hk.streamChunks]; exact (hk.logs _ _).read⟩

theorem readArtifact_eq {id : Uuid} {stored : StoredJob} {a : ArtifactUpload} (hk : db.Keeps D)
    (hget : getJobPreferJobId db id = .ok stored) (ha : a ∈ D.artifacts a.runId) (hrun : a.runId = stored.run.id) :
    ∃ artifact, readArtifact db id a.id = .ok (artifact, a.data) ∧ artifact.name = a.name := by
  obtain ⟨artifact, hartifact, -, hrun', hname, hsize, hsha⟩ := hk.getArtifact_of_mem ha
  obtain ⟨row, hfind, hfiled⟩ := hk.find_artifact ha
  refine ⟨artifact, ?_, hname⟩
  simp only [readArtifact, bind_eq_ok, ensure_eq_ok, required_eq_ok, decide_eq_true_eq, Bool.and_eq_true, pure_eq_ok,
    readGeneratedObject_eq_ok]
  exact ⟨stored, hget, some artifact, hartifact, artifact, rfl, (), hrun'.trans hrun, row, hfind, a.data, hfiled.object,
    (), ⟨hsize.symm, hsha.symm⟩, rfl⟩

end Answers

/-! ### Every history -/

/-- The store holds exactly the uploads that it accepted. -/
structure StoredExactly (used : Set (List UInt8)) (accepted : Upload → Prop) (db : Db) (D : Depot) : Prop
    extends D.Sound where
  held : ∀ u, accepted u ↔ D.Holds u
  tiles : ∀ r s, Tape.Tiles (fun offset data => accepted (.chunk ⟨r, s, offset, data⟩)) (D.logs r s).flatten.length
  log : ∀ id stored s, getJobPreferJobId db id = .ok stored → s = "stdout" ∨ s = "stderr" →
    readLog db id s = .ok (D.logs stored.run.id s).flatten
  artifact : ∀ id stored a, getJobPreferJobId db id = .ok stored → accepted (.artifact a) → a.runId = stored.run.id →
    ∃ artifact, readArtifact db id a.id = .ok (artifact, a.data) ∧ artifact.name = a.name
  again : ∀ u, accepted u → ∀ env workerCredential runCredential leaseId db₁ n db₂ nodeId,
    expireLeases env db env.now.timestamp = .ok (db₁, n) →
    authorizeRunTx db₁ workerCredential runCredential u.runId leaseId env.now.timestamp = .ok (db₂, nodeId) →
    ∃ answer, exec env db (u.op workerCredential runCredential leaseId) = .ok (db₂, answer) ∧ answer.Acknowledges u ∧
      db₂.uploaded = db.uploaded
  differing : ∀ u, accepted u → ∀ env op v, op.upload = some v → v.data ∈ used → v.SamePlace u → v.data ≠ u.data →
    ∃ e, exec env db op = .error e

/-- After any calls the stored logs and artifacts are what was accepted: the chunks of a stream tile it from its
start, reads give the accepted bytes, what was accepted is acknowledged again to a worker that is still
authorized, other bytes for its place are refused, and no run exceeds its quotas. -/
theorem uploads_exact (seed : String) (calls : List Call) (hinj : Set.InjOn bytesSha256 used)
    (hused : ∀ call ∈ calls, ∀ u, call.op.upload = some u → u.data ∈ used) :
    ∃ D, StoredExactly used (· ∈ acceptedUploads seed calls) (storeAfter seed calls) D := by
  obtain ⟨D, hk, hholds⟩ :=
    run_keeps ⟨keeps_empty seed, Depot.sound_empty, fun u hu => absurd hu Depot.not_holds_empty, hinj⟩ hused
  have hheld : ∀ u, u ∈ acceptedUploads seed calls ↔ D.Holds u := by
    intro u
    rw [hholds u]
    exact ⟨.inr, fun h => h.resolve_left Depot.not_holds_empty⟩
  refine ⟨D, { hk.sound with held := hheld, tiles := ?_, log := ?_, artifact := ?_, again := ?_, differing := ?_ }⟩
  · intro r s
    simp only [hheld]
    exact Tape.tiles_at (hk.sound.filled r s)
  · intro id stored s hget hstream
    exact readLog_eq hk.keeps hget hstream
  · intro id stored a hget ha hrun
    exact readArtifact_eq hk.keeps hget ((hheld _).1 ha) hrun
  · intro u hu env workerCredential runCredential leaseId db₁ n db₂ nodeId hexpire hauth
    obtain ⟨answer, hexec, hack⟩ := exec_again hk.keeps hk.sound ((hheld u).1 hu) hexpire hauth
    exact ⟨answer, hexec, hack, uploaded_authorized hexpire hauth⟩
  · intro u hu env op v hop hv hplace hdata
    exact refused_of_differs hk ((hheld u).1 hu) hop hv hplace hdata

def sampleChunk : Upload := .chunk ⟨sampleRun, "stdout", 0, [104]⟩

/-- The worker of the run sends the chunk. -/
def chunkOp : Op := sampleChunk.op "a" (envAt 1000 22).randomSecret sampleLease

/-- The dispatched run is claimed. -/
def claimCalls : List Call :=
  dispatchCalls (sampleJob ⟨7⟩ .empty none) ++ [⟨envAt 1000 22, .claimJob "a" ⟨1⟩ sampleProbe "https://c"⟩]

def uploadCalls : List Call := claimCalls ++ [⟨envAt 1000 23, chunkOp⟩]

def laterChunk (offset : Nat) (byte : UInt8) : Upload := .chunk ⟨sampleRun, "stdout", offset, [byte]⟩

/-- A second chunk follows, the first one is sent again, and other bytes are sent for its place. -/
def resendCalls : List Call := uploadCalls ++
  [(laterChunk 1 105, 24), (sampleChunk, 25), (laterChunk 0 106, 26)].map fun (u, tick) =>
    ⟨envAt 1000 tick, u.op "a" (envAt 1000 22).randomSecret sampleLease⟩

theorem uploads_checked : (decide (exec (envAt 5000 24) (storeAfter "s" uploadCalls) chunkOp = .error .runUnauthorized) &&
    decide (acceptedUploads "s" uploadCalls = [sampleChunk]) &&
    decide (acceptedUploads "s" resendCalls = [sampleChunk, laterChunk 1 105, sampleChunk])) = true := by
  decide +kernel

theorem uploads_exact_resendCalls : acceptedUploads "s" resendCalls = [sampleChunk, laterChunk 1 105, sampleChunk] ∧
    ∃ D, StoredExactly {[104], [105], [106]} (· ∈ acceptedUploads "s" resendCalls) (storeAfter "s" resendCalls) D := by
  have hdistinct : ([[104], [105], [106]].map bytesSha256).Nodup := by decide +kernel
  have hsent : (resendCalls.all fun call => call.op.upload.all fun u => u.data ∈ [[104], [105], [106]]) = true := by decide +kernel
  refine ⟨of_decide_eq_true (Bool.and_eq_true_iff.1 uploads_checked).2, uploads_exact "s" resendCalls ?_ ?_⟩
  · intro a ha b hb
    exact List.inj_on_of_nodup_map hdistinct (by simpa using ha) (by simpa using hb)
  · intro call hcall u hu
    have hall := List.all_eq_true.1 hsent call hcall
    rw [hu] at hall
    simpa using hall

/-- Once the lease is over, the chunk that was accepted is refused. -/
theorem late_resend_refused : sampleChunk ∈ acceptedUploads "s" uploadCalls ∧
    exec (envAt 5000 24) (storeAfter "s" uploadCalls) chunkOp = .error .runUnauthorized := by
  obtain ⟨⟨hrefused, haccepted⟩, -⟩ := by simpa only [Bool.and_eq_true, decide_eq_true_eq] using uploads_checked
  refine ⟨?_, hrefused⟩
  rw [haccepted]
  exact List.mem_singleton_self _

end CYC
