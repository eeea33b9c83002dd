import ClusterYourCodex.Proofs.Job
import ClusterYourCodex.Spec.Patterns

/-! Which valid jobs a worker can read. The protocol and the worker check paths and patterns with code of their own:
the worker refuses what is blank or has a colon, its glob library refuses what it does not take for a glob, and the
protocol asks for neither. Nothing else in the form of a valid job is refused, whatever the library is. -/

namespace CYC

open Checked

theorem forIndexed_eq_ok {α ε : Type} {check : Nat → α → Except ε Unit} {as : List α} {i : Nat}
    (h : forIndexed check i as = .ok ()) {a : α} (ha : a ∈ as) : ∃ j, check j a = .ok () := by
  induction as generalizing i with
  | nil => cases ha
  | cons b as ih =>
    simp only [forIndexed, seq_eq_ok] at h
    rcases List.mem_cons.1 ha with rfl | ha
    · exact ⟨i, h.1⟩
    · exact ih h.2 ha

/-! ### What the protocol checks -/

structure PortableText (value : String) : Prop where
  noNul : Char.ofNat 0 ∉ value.toList
  noBackslash : '\\' ∉ value.toList
  relative : value.toList.head? ≠ some '/'
  segments : ∀ segment ∈ segments value.toList, segment ≠ [] ∧ segment ≠ ['.'] ∧ segment ≠ ['.', '.']

theorem portableText_of_validate {value : String} {glob : Bool} (h : validatePortableRelative value glob = .ok ()) :
    PortableText value := by
  simp only [validatePortableRelative, seq_eq_ok, ensure_eq_ok, forM_eq_ok, Bool.not_eq_true', List.contains_eq_mem,
    decide_eq_false_iff_not, decide_eq_true_eq] at h
  obtain ⟨-, hnul, hbackslash, hrelative, -, -, hsegments⟩ := h
  refine ⟨hnul, hbackslash, hrelative, fun segment hs => ?_⟩
  have hsegment := hsegments segment hs
  unfold validatePortableSegment at hsegment
  split_ifs at hsegment with hnil hdot hparent
  exact ⟨hnil, hdot, hparent⟩

namespace PortableText

variable {value : String}

theorem head_not_separator (h : PortableText value) : value.toList.head?.any isSeparator = false := by
  cases hhead : value.toList.head? with
  | none => rfl
  | some c =>
    have hslash : c ≠ '/' := fun hc => h.relative (hhead.trans (congrArg some hc))
    have hbackslash : c ≠ '\\' := fun hc => h.noBackslash (hc ▸ List.mem_of_mem_head? hhead)
    simp [isSeparator, hslash, hbackslash]

/-- Without backslashes the worker's segments are those of the protocol. -/
theorem splitOnChar_isSeparator (h : PortableText value) :
    Text.splitOnChar isSeparator value.toList = CYC.segments value.toList := by
  refine Text.splitOnChar_congr fun c hc => ?_
  have hbackslash : c ≠ '\\' := fun he => h.noBackslash (he ▸ hc)
  simp [isSeparator, hbackslash]

theorem components_normal (h : PortableText value) :
    (pathComponents value.toList).any (fun c => c = .parentDir || c = .rootDir) = false := by
  have hnormal : ∀ segment ∈ CYC.segments value.toList, pathComponent segment = some (.normal segment) := by
    intro segment hs
    obtain ⟨hnil, hdot, hparent⟩ := h.segments segment hs
    simp [pathComponent, hnil, hdot, hparent]
  have hfilter : (CYC.segments value.toList).filterMap pathComponent = (CYC.segments value.toList).map .normal := by
    rw [← List.filterMap_eq_map]
    exact List.filterMap_congr hnormal
  have hcomponents : pathComponents value.toList = (CYC.segments value.toList).map .normal := by
    unfold pathComponents
    rw [if_neg h.relative]
    split
    · next rest hsegments =>
      exact absurd rfl (h.segments ['.'] (by rw [hsegments]; exact List.mem_cons_self)).2.1
    · exact hfilter
  simp [hcomponents]

theorem map_backslash (h : PortableText value) :
    value.toList.map (fun c => if c = '\\' then '/' else c) = value.toList := by
  refine (List.map_congr_left fun c hc => ?_).trans (List.map_id _)
  have hbackslash : c ≠ '\\' := fun he => h.noBackslash (he ▸ hc)
  exact if_neg hbackslash

end PortableText

/-! ### What the worker adds -/

/-- Not blank and without a colon. -/
structure PlainText (value : String) : Prop where
  visible : Text.blank value = false
  noColon : ':' ∉ value.toList

instance (value : String) : Decidable (PlainText value) :=
  decidable_of_iff (Text.blank value = false ∧ ':' ∉ value.toList) ⟨fun h => ⟨h.1, h.2⟩, fun h => ⟨h.1, h.2⟩⟩

theorem safeWorkingDirectory_eq_ok {directory : String} (h : PortableText directory) :
    safeWorkingDirectory directory = .ok () ↔ PlainText directory := by
  have hsegments : (CYC.segments directory.toList).any (fun s => s = ['.', '.'] || s.isEmpty) = false := by
    rw [List.any_eq_false]
    intro segment hs
    obtain ⟨hnil, -, hparent⟩ := h.segments segment hs
    simp [hnil, hparent]
  have hnul : directory.toList.contains (Char.ofNat 0) = false := by simpa using h.noNul
  simp only [safeWorkingDirectory, seq_eq_ok, ensure_eq_ok, h.splitOnChar_isSeparator, hsegments, h.head_not_separator,
    h.components_normal, hnul, Bool.or_false, Bool.false_or, Bool.not_false, and_true, Bool.not_eq_true']
  constructor
  · intro hchecks
    exact ⟨hchecks.1, by simpa using hchecks.2⟩
  · intro hplain
    exact ⟨hplain.visible, by simpa using hplain.noColon⟩

section

variable {Pattern GlobSet Error : Type} (globset : GlobLibrary Pattern GlobSet Error)

variable {globset} in
theorem compileGlob_eq_ok {field pattern : String} {glob : Pattern} (h : PortableText pattern) :
    compileGlob globset field pattern = .ok glob ↔ PlainText pattern ∧ globset.new pattern.toList = .ok glob := by
  have hsegments : (CYC.segments pattern.toList).any (· = ['.', '.']) = false := by
    rw [List.any_eq_false]
    intro segment hs
    simpa using (h.segments segment hs).2.2
  simp only [compileGlob, seq_eq_ok, ensure_eq_ok, mapError_eq_ok, h.splitOnChar_isSeparator, hsegments,
    h.head_not_separator, h.map_backslash, Bool.or_false, Bool.not_eq_true', Bool.or_eq_false_iff]
  constructor
  · rintro ⟨⟨hvisible, hcolon⟩, hglob⟩
    exact ⟨⟨hvisible, by simpa using hcolon⟩, hglob⟩
  · rintro ⟨hplain, hglob⟩
    exact ⟨⟨hplain.visible, by simpa using hplain.noColon⟩, hglob⟩

/-- The library reads each of the patterns and builds a set of them. -/
def GlobLibrary.Takes (patterns : List String) : Prop :=
  ∃ globs, List.Forall₂ (fun p glob => globset.new p.toList = .ok glob) patterns globs ∧ ∃ set, globset.build globs = .ok set

variable {globset} in
theorem compileGlobs_isOk {patterns : List String} {field : String} (h : ∀ p ∈ patterns, PortableText p) :
    (∃ set, compileGlobs globset patterns field = .ok set) ↔ (∀ p ∈ patterns, PlainText p) ∧ globset.Takes patterns := by
  have hcollect : ∀ globs, List.Forall₂ (fun p glob => compileGlob globset field p = .ok glob) patterns globs ↔
      (∀ p ∈ patterns, PlainText p) ∧ List.Forall₂ (fun p glob => globset.new p.toList = .ok glob) patterns globs := by
    intro globs
    constructor
    · intro hread
      have hportable := (List.forall₂_and_left _ _).2 ⟨h, hread⟩
      exact (List.forall₂_and_left _ _).1 (hportable.imp fun _ _ hp => (compileGlob_eq_ok hp.1).1 hp.2)
    · rintro ⟨hplain, hread⟩
      have hportable := (List.forall₂_and_left _ _).2 ⟨h, (List.forall₂_and_left _ _).2 ⟨hplain, hread⟩⟩
      exact hportable.imp fun _ _ hp => (compileGlob_eq_ok hp.1).2 hp.2
  simp only [compileGlobs, bind_eq_ok, collect_eq_ok, mapError_eq_ok, hcollect, GlobLibrary.Takes]
  constructor
  · rintro ⟨set, globs, ⟨hplain, hread⟩, hset⟩
    exact ⟨hplain, globs, hread, set, hset⟩
  · rintro ⟨hplain, globs, hread, set, hset⟩
    exact ⟨set, globs, ⟨hplain, hread⟩, hset⟩

/-! ### Valid jobs -/

structure JobSpec.PortablePaths (job : JobSpec) : Prop where
  directories : ∀ step ∈ job.steps, ∀ directory ∈ step.workingDirectory, PortableText directory
  includes : ∀ p ∈ job.artifacts.includes, PortableText p
  excludes : ∀ p ∈ job.artifacts.excludes, PortableText p

theorem JobSpec.portablePaths_of_validate {job : JobSpec} (h : job.validate = .ok ()) : job.PortablePaths := by
  simp only [JobSpec.validate, seq_eq_ok] at h
  obtain ⟨-, -, -, hsteps, -, -, -, -, -, -, -, -, hincludes, hexcludes, -⟩ := h
  refine ⟨?_, ?_, ?_⟩
  · intro step hstep directory hdirectory
    obtain ⟨i, hi⟩ := forIndexed_eq_ok hsteps hstep
    rw [Option.mem_def] at hdirectory
    simp only [validateStep, seq_eq_ok, hdirectory, checkSome_some, mapError_eq_ok] at hi
    exact portableText_of_validate hi.2.2.1
  · intro p hp
    obtain ⟨i, hi⟩ := forIndexed_eq_ok hincludes hp
    simp only [validateIncludePattern, seq_eq_ok, mapError_eq_ok] at hi
    exact portableText_of_validate hi.1
  · intro p hp
    obtain ⟨i, hi⟩ := forIndexed_eq_ok hexcludes hp
    rw [validateExcludePattern, mapError_eq_ok] at hi
    exact portableText_of_validate hi

/-- A worker with this glob library takes the form of every path and pattern of the job. -/
structure JobSpec.Readable (job : JobSpec) : Prop where
  directories : ∀ step ∈ job.steps, ∀ directory ∈ step.workingDirectory, safeWorkingDirectory directory = .ok ()
  includes : ∃ set, compileGlobs globset job.artifacts.includes "include" = .ok set
  excludes : ∃ set, compileGlobs globset job.artifacts.excludes "exclude" = .ok set

/-- Every path and pattern of the job is plain, and the library takes both lists of patterns. -/
structure JobSpec.PlainPaths (job : JobSpec) : Prop where
  directories : ∀ step ∈ job.steps, ∀ directory ∈ step.workingDirectory, PlainText directory
  patterns : ∀ p ∈ job.artifacts.includes ++ job.artifacts.excludes, PlainText p
  includes : globset.Takes job.artifacts.includes
  excludes : globset.Takes job.artifacts.excludes

theorem readable_iff_plainPaths (job : JobSpec) (h : job.validate = .ok ()) :
    job.Readable globset ↔ job.PlainPaths globset := by
  obtain ⟨hdirectories, hincludes, hexcludes⟩ := job.portablePaths_of_validate h
  constructor
  · rintro ⟨hd, hi, he⟩
    obtain ⟨hplainIn, hi⟩ := (compileGlobs_isOk hincludes).1 hi
    obtain ⟨hplainEx, he⟩ := (compileGlobs_isOk hexcludes).1 he
    refine ⟨?_, ?_, hi, he⟩
    · intro step hstep directory hdirectory
      exact (safeWorkingDirectory_eq_ok (hdirectories step hstep directory hdirectory)).1 (hd step hstep directory hdirectory)
    · intro p hp
      exact (List.mem_append.1 hp).elim (hplainIn p) (hplainEx p)
  · rintro ⟨hd, hplain, hi, he⟩
    refine ⟨?_, ?_, ?_⟩
    · intro step hstep directory hdirectory
      exact (safeWorkingDirectory_eq_ok (hdirectories step hstep directory hdirectory)).2 (hd step hstep directory hdirectory)
    · exact (compileGlobs_isOk hincludes).2 ⟨fun p hp => hplain p (List.mem_append_left _ hp), hi⟩
    · exact (compileGlobs_isOk hexcludes).2 ⟨fun p hp => hplain p (List.mem_append_right _ hp), he⟩

end

/-- A job with one step in the directory, that keeps what the pattern matches. -/
def patternJob (directory pattern : String) : JobSpec where
  apiVersion := CYC.apiVersion
  id := ⟨1⟩
  origin := none
  kind := .build
  source := .snapshot ("sha256:" ++ String.ofList (List.replicate 64 '0')) (some 1)
  requirements := { os := none, arch := none, capabilities := .empty, minCpuCores := none, minMemoryMib := none,
                    minDiskMib := none, gpu := none }
  resourceRequest := none
  steps := [{ name := "build", shell := none, script := "make", workingDirectory := some directory, timeoutSeconds := none }]
  artifacts := { includes := [pattern], excludes := [defaultGitArtifactExclude], retentionDays := none }
  timeoutSeconds := none
  placementPolicy := .balanced
  preferredNodeId := none

/-- A library that reads every text without a bracket, as itself, and builds sets of at most two patterns. -/
def smallGlobs : GlobLibrary (List Char) (List (List Char)) Nat where
  new text := if '[' ∈ text then .error 0 else .ok text
  build globs := if globs.length ≤ 2 then .ok globs else .error globs.length

theorem readable_iff_plainPaths_out : (patternJob "crates" "out/*").Readable smallGlobs :=
  (readable_iff_plainPaths smallGlobs _ (by decide)).2
    ⟨by decide, by decide, ⟨_, .cons rfl .nil, _, rfl⟩, ⟨_, .cons rfl .nil, _, rfl⟩⟩

/-- Three valid jobs: with a colon in a directory and with one in a pattern, which no worker takes, and with a class that
nothing closes, which no worker takes whose library refuses it. -/
theorem colon_unreadable :
    (patternJob "ab:c" "out/*").validate = .ok () ∧ (patternJob "crates" "out:a/*").validate = .ok () ∧
    (patternJob "crates" "out/[ab").validate = .ok () ∧
    ∀ {Pattern GlobSet Error : Type} (globset : GlobLibrary Pattern GlobSet Error),
      ¬(patternJob "ab:c" "out/*").Readable globset ∧ ¬(patternJob "crates" "out:a/*").Readable globset ∧
      ∀ e, globset.new "out/[ab".toList = .error e → ¬(patternJob "crates" "out/[ab").Readable globset ∧
        compileGlobs globset ["out/[ab"] "include" = .error (.malformed "compile artifact include glob `out/[ab`" e) := by
  refine ⟨by decide, by decide, by decide, fun globset => ⟨?_, ?_, ?_⟩⟩
  · intro h
    exact absurd (h.directories _ List.mem_cons_self _ rfl) (by decide)
  · intro h
    obtain ⟨set, hset⟩ := h.includes
    exact absurd hset (by rintro ⟨⟩)
  · intro e he
    have hglob : compileGlob globset "include" "out/[ab" =
        .error (.malformed "compile artifact include glob `out/[ab`" e) :=
      congrArg (Except.mapError (GlobError.malformed "compile artifact include glob `out/[ab`")) he
    have hfails : compileGlobs globset ["out/[ab"] "include" = _ := bind_eq_error.2 (.inl (bind_eq_error.2 (.inl hglob)))
    refine ⟨?_, hfails⟩
    intro h
    obtain ⟨set, hset⟩ := h.includes
    exact absurd (hfails.symm.trans hset) (by rintro ⟨⟩)

end CYC
