import ClusterYourCodex.Ledger.Workers

/-! What the check of a completion establishes: the receipt of a success agrees with the job, with the
stored chunks of both streams and with the stored artifacts. One lemma for each loop of the check. -/

namespace CYC

open Checked Relational

variable {db : Db} {c : RunCompletion}

/-! ### Steps and source -/

/-- The induction is on the observed steps; `previous` is the end of the step before. -/
theorem matchSteps_eq_ok {shell : Shell} {startedAt : Option DateTime} {finishedAt : DateTime}
    {previous : Option DateTime} {steps : List StepExecutionEvidence} {expected : List JobStep}
    (hlength : steps.length = expected.length) (hvalid : ∀ s ∈ steps, s.startedAt.nanos ≤ s.finishedAt.nanos)
    (h : matchSteps shell startedAt finishedAt previous (steps.zip expected) = .ok ()) :
    List.Forall₂ (fun observed (expected : JobStep) =>
      observed.name = expected.name ∧ observed.shell = expected.shell.getD shell) steps expected ∧
    (∀ p, previous = some p → ∀ s ∈ steps, p.nanos ≤ s.startedAt.nanos) ∧
    steps.Pairwise fun a b => a.finishedAt.nanos ≤ b.startedAt.nanos := by
  induction steps generalizing previous expected with
  | nil =>
    cases expected with
    | nil => exact ⟨.nil, nofun, .nil⟩
    | cons e es => cases hlength
  | cons s ss ih =>
    cases expected with
    | nil => cases hlength
    | cons e es =>
      simp only [List.zip_cons_cons, matchSteps, seq_eq_ok, ensure_eq_ok, Bool.and_eq_true, decide_eq_true_eq] at h
      obtain ⟨⟨⟨⟨⟨hname, hshell⟩, -⟩, -⟩, hprevious⟩, h⟩ := h
      obtain ⟨hmatch, hafter, hordered⟩ := ih (Nat.succ.inj hlength) (fun x hx => hvalid x (List.mem_cons_of_mem s hx)) h
      refine ⟨.cons ⟨hname, hshell⟩ hmatch, ?_, List.pairwise_cons.2 ⟨hafter _ rfl, hordered⟩⟩
      rintro p rfl x hx
      have hp : p.nanos ≤ s.startedAt.nanos := by simpa using hprevious
      rcases List.mem_cons.1 hx with rfl | hx
      · exact hp
      · exact (hp.trans (hvalid s List.mem_cons_self)).trans (hafter _ rfl x hx)

theorem validateSteps_eq_ok {index : Nat} {steps : List StepExecutionEvidence} (h : validateSteps index steps = .ok ()) :
    ∀ s ∈ steps, s.startedAt.nanos ≤ s.finishedAt.nanos := by
  induction steps generalizing index with
  | nil => exact nofun
  | cons s ss ih =>
    simp only [validateSteps, seq_eq_ok, StepExecutionEvidence.validate, ensure_eq_ok, decide_eq_true_eq] at h
    intro x hx
    rcases List.mem_cons.1 hx with rfl | hx
    · exact h.1.2
    · exact ih h.2.2 x hx

/-- A success has resolved the source that the job names. -/
theorem sourceResolved_of_validate {source : SourceSpec} {execution : ExecutionEvidence}
    (h : validateExecutionSource source .succeeded execution = .ok ()) : SourceResolved source execution.source := by
  have unresolved : validateUnresolved .succeeded execution ≠ .ok () := by
    simp [validateUnresolved, ensure]
  cases source with
  | git repository revision =>
    simp only [validateExecutionSource, seq_eq_ok, ensure_eq_ok, Bool.and_eq_true, decide_eq_true_eq] at h
    obtain ⟨⟨⟨hkind, hrepository⟩, -⟩, h⟩ := h
    split at h
    · exact absurd h unresolved
    · simp only [ensure_eq_ok, Bool.and_eq_true, decide_eq_true_eq] at h
      exact ⟨hkind, hrepository, h.1.1⟩
  | snapshot digest _ =>
    simp only [validateExecutionSource, seq_eq_ok, ensure_eq_ok, Bool.and_eq_true, decide_eq_true_eq] at h
    obtain ⟨⟨⟨⟨hkind, -⟩, -⟩, -⟩, h⟩ := h
    split at h
    · exact absurd h unresolved
    · simp only [ensure_eq_ok, Bool.and_eq_true, decide_eq_true_eq] at h
      exact ⟨hkind, h.1, h.2⟩

/-! ### Streams -/

theorem readGeneratedObject_eq_ok {path : String} {bytes : List UInt8} :
    readGeneratedObject db path = .ok bytes ↔ db.ledger.objects path = some bytes := by
  simp only [readGeneratedObject, bind_eq_ok, required_eq_ok, pure_eq_ok, Db.ledger, Option.map_eq_some_iff]
  rfl

theorem satU64_add_satU64 (a b : Nat) : satU64 (satU64 a + b) = satU64 (a + b) := by
  unfold satU64
  omega

/-- The loop over the chunks of a stream concatenates them; its counters saturate. -/
theorem readChunk_loop {chunks : List LogChunkRow} {start totals : StreamTotals}
    (h : chunks.foldlM (readChunk db) start = .ok totals) :
    ∃ pieces, List.Forall₂ (fun (row : LogChunkRow) piece => db.ledger.objects row.relativePath = some piece) chunks pieces ∧
      totals.bytes = start.bytes ++ pieces.flatten ∧
      satU64 totals.byteCount = satU64 (start.byteCount + pieces.flatten.length) ∧
      satU64 totals.chunkCount = satU64 (start.chunkCount + chunks.length) := by
  induction chunks generalizing start with
  | nil => cases h; exact ⟨[], .nil, by simp, by simp, by simp⟩
  | cons row chunks ih =>
    rw [List.foldlM_cons, bind_eq_ok] at h
    obtain ⟨next, hnext, h⟩ := h
    obtain ⟨pieces, hpieces, hbytes, hcount, hchunks⟩ := ih h
    simp only [readChunk, seq_eq_ok] at hnext
    simp only [bind_eq_ok, ensure_eq_ok, readGeneratedObject_eq_ok, pure_eq_ok, Bool.and_eq_true, decide_eq_true_eq] at hnext
    obtain ⟨-, piece, hpiece, -, ⟨hlength, -⟩, rfl⟩ := hnext
    refine ⟨piece :: pieces, .cons hpiece hpieces, ?_, ?_, ?_⟩
    · rw [hbytes, List.flatten_cons, List.append_assoc]
    · rw [hcount, satU64_add_satU64, List.flatten_cons, List.length_append, ← hlength, Nat.add_assoc]
    · rw [hchunks, satU64_add_satU64, List.length_cons, Nat.add_assoc, Nat.add_comm 1]

/-- Below the quota no counter has saturated. -/
theorem eq_of_satU64 {a b limit : Nat} (h : satU64 a = satU64 b) (ha : a ≤ limit) (hlimit : limit < u64Max) : b = a := by
  unfold satU64 at h
  omega

theorem streamStored_of_verify {runId : Uuid} {stream : String} {e : StreamEvidence} {counts : Nat × Nat}
    (h : verifyStreamEvidence db runId stream e = .ok counts) (hbytes : counts.1 ≤ maxRunLogBytes)
    (hchunks : counts.2 ≤ maxRunLogChunks) : StreamStored db.ledger.objects ((db.rowsOf runId).stream stream) e := by
  simp only [verifyStreamEvidence, bind_eq_ok, ensure_eq_ok, Bool.and_eq_true, decide_eq_true_eq, pure_eq_ok] at h
  obtain ⟨totals, hread, -, ⟨⟨hcount, hchunk⟩, hsha⟩, rfl⟩ := h
  obtain ⟨pieces, hpieces, htotal, hbyteCount, hchunkCount⟩ := readChunk_loop hread
  simp only [List.nil_append, Nat.zero_add] at htotal hbyteCount hchunkCount
  refine ⟨pieces, hpieces, ?_, ?_, by rw [hsha, htotal]⟩
  · rw [hcount, eq_of_satU64 hbyteCount hbytes (by decide)]
  · exact hchunk.trans (eq_of_satU64 hchunkCount hchunks (by decide)).symm

/-! ### Artifacts -/

theorem manifest_eq_some {id : Uuid} {a : ArtifactMetadata} (h : c.manifest id = some a) : a ∈ c.artifacts ∧ a.id = id := by
  refine ⟨List.mem_reverse.1 (List.mem_of_find?_eq_some h), ?_⟩
  simpa using List.find?_some h

theorem nodup_artifactsOf (db : Db) (runId : Uuid) : ((db.artifactsOf runId).map ArtifactRow.id).Nodup := by
  refine List.pairwise_map.2 (((db.artifacts.apart).imp fun {a b} h hid => ?_).filter _)
  simp [Schema.clash, hid] at h

/-- Two lists of the same length without repeated keys, every key of one among those of the other. -/
theorem mem_keys_of_length {κ : Type} [DecidableEq κ] {as bs : List κ} (ha : as.Nodup) (hsub : ∀ a ∈ as, a ∈ bs)
    (hlength : bs.length ≤ as.length) : ∀ b ∈ bs, b ∈ as := by
  intro b hb
  exact ((List.subperm_of_subset ha hsub).perm_of_length_le hlength).mem_iff.2 hb

/-- The manifest of a completion lists exactly the stored artifacts. -/
theorem artifacts_of_validate (hnodup : (c.artifacts.map ArtifactMetadata.id).Nodup)
    (h : validateArtifactManifest db c = .ok ()) :
    ∀ e, e ∈ c.artifacts.map ArtifactMetadata.entry ↔ e ∈ (db.artifactsOf c.runId).map ArtifactRow.entry := by
  simp only [validateArtifactManifest, seq_eq_ok, ensure_eq_ok, decide_eq_true_eq] at h
  obtain ⟨hlength, h⟩ := h
  rw [bind_eq_ok] at h
  obtain ⟨_, hloop, -⟩ := h
  have hperm := List.perm_insertionSort (fun a b : ArtifactRow => a.id.value ≤ b.id.value) (db.artifactsOf c.runId)
  -- every stored row has its manifest entry
  have hrow : ∀ row ∈ db.artifactsOf c.runId, ∃ a ∈ c.artifacts, a.id = row.id ∧ a.entry = row.entry := by
    intro row hmem
    refine forall_of_foldlM (Q := fun row => ∃ a ∈ c.artifacts, a.id = row.id ∧ a.entry = row.entry) hloop ?_ row
      (hperm.mem_iff.2 hmem)
    intro row s s' hstep
    simp only [matchArtifact, bind_eq_ok, required_eq_ok, ensure_eq_ok, Bool.and_eq_true, decide_eq_true_eq] at hstep
    obtain ⟨a, ha, -, ⟨⟨⟨⟨⟨-, -⟩, hpath⟩, hsize⟩, hsha⟩, -⟩, -⟩ := hstep
    obtain ⟨hmem, hid⟩ := manifest_eq_some ha
    exact ⟨a, hmem, hid, by simp [ArtifactMetadata.entry, ArtifactRow.entry, hid, hpath, hsize, hsha]⟩
  have hids : ∀ id ∈ c.artifacts.map ArtifactMetadata.id, id ∈ (db.artifactsOf c.runId).map ArtifactRow.id := by
    refine mem_keys_of_length (nodup_artifactsOf db c.runId) ?_ ?_
    · intro id hid
      obtain ⟨row, hmem, rfl⟩ := List.mem_map.1 hid
      obtain ⟨a, ha, hid, -⟩ := hrow row hmem
      exact hid ▸ List.mem_map_of_mem ha
    · rw [List.length_map, List.length_map, ← hlength, hperm.length_eq]
  intro e
  constructor
  · intro he
    obtain ⟨a, ha, rfl⟩ := List.mem_map.1 he
    obtain ⟨row, hmem, hid⟩ := List.mem_map.1 (hids a.id (List.mem_map_of_mem ha))
    obtain ⟨a', ha', hid', hentry⟩ := hrow row hmem
    have : a' = a := List.inj_on_of_nodup_map hnodup ha' ha (hid'.trans hid)
    exact List.mem_map.2 ⟨row, hmem, by rw [← hentry, this]⟩
  · intro he
    obtain ⟨row, hmem, rfl⟩ := List.mem_map.1 he
    obtain ⟨a, ha, -, hentry⟩ := hrow row hmem
    exact List.mem_map.2 ⟨a, ha, hentry⟩

/-! ### The whole check -/

/-- A receipt of success that passes both validations is borne out by the store. -/
theorem evidenced_of_validate {stored : StoredJob} (hvalid : c.validate = .ok ()) (hsucceeded : c.finalState = .succeeded)
    (h : validateManagedCompletion db stored c = .ok ()) :
    Evidenced db.ledger.objects (db.rowsOf c.runId) stored.job c := by
  simp only [RunCompletion.validate, ExecutionEvidence.validate, seq_eq_ok, ensure_eq_ok, hsucceeded, ne_eq,
    not_true_eq_false, decide_false, Bool.false_or, RunCompletion.cleanExit, Bool.and_eq_true, List.all_eq_true,
    decide_eq_true_eq] at hvalid
  obtain ⟨-, -, ⟨-, -, -, hsteps⟩, -, -, -, ⟨-, hexits⟩, -, -, ⟨⟨⟨hnodup, -⟩, -⟩, -⟩⟩ := hvalid
  simp only [validateManagedCompletion, bind_eq_ok, hsucceeded] at h
  obtain ⟨_, -, node, -, -, -, _, hsource, _, hstep, stdout, hstdout, stderr, hstderr, _, hquota, hmanifest⟩ := h
  simp only [ensure_eq_ok, Bool.and_eq_true, decide_eq_true_eq] at hquota
  simp only [validateStepEvidence, bind_eq_ok, ensure_eq_ok, hsucceeded, Bool.and_eq_true, decide_eq_true_eq, ne_eq,
    not_true_eq_false, decide_false, Bool.false_or] at hstep
  obtain ⟨-, ⟨⟨-, hlength⟩, -⟩, finishedAt, -, _, hmatch, -⟩ := hstep
  obtain ⟨hobserved, -, hordered⟩ := matchSteps_eq_ok hlength (validateSteps_eq_ok hsteps) hmatch
  have hquota' : stdout.1 ≤ maxRunLogBytes ∧ stderr.1 ≤ maxRunLogBytes ∧ stdout.2 ≤ maxRunLogChunks ∧
      stderr.2 ≤ maxRunLogChunks := by
    simp only [satU64, u64Max, maxRunLogBytes, maxRunLogChunks] at hquota ⊢
    omega
  exact {
    steps := ⟨_, hobserved⟩
    exits := fun s hs => (hexits s hs).1
    ordered := hordered
    source := sourceResolved_of_validate hsource
    stdout := streamStored_of_verify hstdout hquota'.1 hquota'.2.2.1
    stderr := streamStored_of_verify hstderr hquota'.2.1 hquota'.2.2.2
    artifacts := artifacts_of_validate hnodup hmanifest }

end CYC
