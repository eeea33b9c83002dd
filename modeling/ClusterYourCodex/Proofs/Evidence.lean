import ClusterYourCodex.Proofs.Job
import ClusterYourCodex.Proofs.Rejections

/-! When the evidence of a scheduling decision can be bound to a plan. Validation of an explanation
asks for little that the scheduler does not give by construction: what remains are bounds on the
texts that a node's name, a required capability or a requested device contribute, and that no node
lacks two required capabilities. -/

namespace CYC

open Checked Text
open scoped List

variable {bound : Int} {cs : List ScoreComponent} {n : SchedulingNode} {job : JobSpec} {t : DateTime}

/-! ### What the validator accepts -/

theorem validateRejections_eq_ok {seen : List RejectionCode} {rs : List PlacementRejection} {u : Unit} :
    validateRejections seen rs = .ok u ↔
      LegibleReasons rs ∧ (codes rs).Nodup ∧ ∀ code ∈ codes rs, code ∉ seen := by
  induction rs generalizing seen with
  | nil => simp [validateRejections, LegibleReasons, codes]
  | cons r rs ih =>
    have hcons : LegibleReasons (r :: rs) ↔ validText r.detail = true ∧ LegibleReasons rs := by
      simp [LegibleReasons]
    rw [hcons]
    simp only [validateRejections, seq_eq_ok, ensure_eq_ok, Bool.not_eq_true', List.contains_eq_mem,
      decide_eq_false_iff_not, ih, codes, List.map_cons, List.nodup_cons, List.mem_cons, not_or, forall_eq_or_imp]
    constructor
    · rintro ⟨h1, h2, h3, h4, h5⟩
      exact ⟨⟨h1, h3⟩, ⟨fun hmem => (h5 _ hmem).1 rfl, h4⟩, h2, fun c hc => (h5 c hc).2⟩
    · rintro ⟨⟨h1, h3⟩, ⟨h4, h5⟩, h2, h6⟩
      exact ⟨h1, h2, h3, h5, fun c hc => ⟨fun e => h4 (e ▸ hc), h6 c hc⟩⟩

theorem isSafeJsonI64_iff {v : Int} : isSafeJsonI64 v = true ↔ -maxSafeJsonI64 ≤ v ∧ v ≤ maxSafeJsonI64 := by
  rw [isSafeJsonI64, Bool.and_eq_true, decide_eq_true_iff, decide_eq_true_iff]

def componentSum (cs : List ScoreComponent) : Int := (cs.map ScoreComponent.value).sum

/-- A component whose text passes and whose value is below `bound` in magnitude. -/
structure BoundedComponent (bound : Int) (c : ScoreComponent) : Prop where
  key : validText c.key = true
  detail : validText c.detail = true
  lower : -bound ≤ c.value
  upper : c.value ≤ bound

theorem mul_length_cons (bound : Int) (c : ScoreComponent) (cs : List ScoreComponent) :
    bound * (c :: cs).length = bound * cs.length + bound := by
  rw [List.length_cons, Nat.cast_add, Nat.cast_one, mul_add, mul_one]

/-- Few bounded components with distinct keys are accepted, and their sum is returned. -/
theorem validateScoreComponents_ok {seen : List String} {sum : Int} (hc : ∀ c ∈ cs, BoundedComponent bound c)
    (hn : (cs.map ScoreComponent.key).Nodup) (hd : ∀ c ∈ cs, c.key ∉ seen) (hb : 0 ≤ bound)
    (hl : -maxSafeJsonI64 ≤ sum - bound * cs.length) (hu : sum + bound * cs.length ≤ maxSafeJsonI64) :
    validateScoreComponents seen sum cs = .ok (sum + componentSum cs) := by
  induction cs generalizing seen sum with
  | nil => simp [validateScoreComponents, componentSum]
  | cons c cs ih =>
    obtain ⟨hk, hdet, hlo, hup⟩ := hc c List.mem_cons_self
    obtain ⟨hnc, hn⟩ := List.nodup_cons.1 hn
    have hlen : 0 ≤ bound * cs.length := mul_nonneg hb (Int.natCast_nonneg _)
    rw [mul_length_cons] at hl hu
    have hsafe : isSafeJsonI64 c.value = true := isSafeJsonI64_iff.2 (by omega)
    have hsafe' : isSafeJsonI64 (sum + c.value) = true := isSafeJsonI64_iff.2 (by omega)
    have hfits : (decide (i64Min ≤ sum + c.value) && decide (sum + c.value ≤ i64Max)) = true := by
      have := isSafeJsonI64_iff.1 hsafe'
      rw [Bool.and_eq_true, decide_eq_true_iff, decide_eq_true_iff]
      unfold maxSafeJsonI64 at this
      unfold i64Min i64Max
      omega
    have hfresh : seen.contains c.key = false := by simpa using hd c List.mem_cons_self
    have := @ih (c.key :: seen) (sum + c.value)
      (fun d hd => hc d (List.mem_cons_of_mem c hd)) hn
      (fun d hdm => by
        rw [List.mem_cons, not_or]
        exact ⟨fun e => hnc (e ▸ List.mem_map_of_mem hdm), hd d (List.mem_cons_of_mem c hdm)⟩)
      (by omega) (by omega)
    simp only [validateScoreComponents, hk, hdet, hfresh, hsafe, hsafe', hfits, Bool.not_false, ensure_true,
      ok_bind, this, componentSum, List.map_cons, List.sum_cons, add_assoc]

/-- What the validator asks of one candidate. -/
structure CandidateBindable (c : PlacementCandidateExplain) : Prop where
  id : c.nodeId ≠ .nil
  name : validText c.nodeName = true
  evidence : validateCandidate c = .ok ()

/-- The candidate loop over distinct nodes accepts exactly bindable candidates, and finds the node. -/
theorem validateCandidates_eq_ok {nodeId : Uuid} {seen : List Uuid} {sel r : Option PlacementCandidateExplain}
    {cs : List PlacementCandidateExplain} (hn : (cs.map PlacementCandidateExplain.nodeId).Nodup)
    (hd : ∀ c ∈ cs, c.nodeId ∉ seen) (hsel : sel.isSome = true → nodeId ∈ seen) :
    validateCandidates nodeId seen sel cs = .ok r ↔
      (∀ c ∈ cs, CandidateBindable c) ∧ r = sel.or (cs.find? fun c => c.nodeId = nodeId) := by
  induction cs generalizing seen sel with
  | nil => simp [validateCandidates, eq_comm]
  | cons c cs ih =>
    obtain ⟨hnc, hn⟩ := List.nodup_cons.1 hn
    have hfresh : seen.contains c.nodeId = false := by simpa using hd c List.mem_cons_self
    have hd' : ∀ d ∈ cs, d.nodeId ∉ c.nodeId :: seen := fun d hdm => by
      rw [List.mem_cons, not_or]
      exact ⟨fun e => hnc (e ▸ List.mem_map_of_mem hdm), hd d (List.mem_cons_of_mem c hdm)⟩
    have hbind : CandidateBindable c ↔ c.nodeId.isNil = false ∧ validText c.nodeName = true ∧
        validateCandidate c = .ok () := by
      refine ⟨fun h => ⟨?_, h.name, h.evidence⟩, fun h => ⟨?_, h.2.1, h.2.2⟩⟩
      · simpa [Uuid.isNil] using h.id
      · simpa [Uuid.isNil] using h.1
    simp only [validateCandidates, seq_eq_ok, ensure_eq_ok, Bool.not_eq_true', hfresh, true_and,
      List.forall_mem_cons, hbind, and_assoc]
    refine and_congr_right fun _ => and_congr_right fun _ => and_congr_right fun _ => ?_
    by_cases hc : c.nodeId = nodeId
    · -- the decision's node: by distinctness it has not been selected before
      have hnone : sel = none := by
        cases sel with
        | none => rfl
        | some s => exact absurd (hsel rfl) (hc ▸ hd c List.mem_cons_self)
      subst hc
      simp only [if_true, hnone, seq_eq_ok, Option.isNone_none, ensure_eq_ok, true_and]
      rw [ih hn hd' fun _ => List.mem_cons_self]
      simp
    · simp only [hc, if_false]
      rw [ih hn hd' fun h => List.mem_cons_of_mem _ (hsel h)]
      simp [hc]

/-! ### Scores -/

/-- No score component exceeds it in magnitude: 32-bit counts times weights of at most 60. -/
def scoreBound : Int := 300000000000

theorem satI64_mem {v : Int} (hl : -bound ≤ v) (hu : v ≤ bound) (hb : 0 ≤ bound) :
    -bound ≤ satI64 v ∧ satI64 v ≤ bound := by
  unfold satI64 i64Min i64Max
  omega

theorem satI64_of_safe {v : Int} (hl : -maxSafeJsonI64 ≤ v) (hu : v ≤ maxSafeJsonI64) : satI64 v = v := by
  unfold satI64 i64Min i64Max
  unfold maxSafeJsonI64 at hl hu
  omega

/-- The saturating sum of few bounded components is their sum. -/
theorem foldl_satI64 {sum : Int} (hc : ∀ c ∈ cs, BoundedComponent bound c) (hb : 0 ≤ bound)
    (hl : -maxSafeJsonI64 ≤ sum - bound * cs.length) (hu : sum + bound * cs.length ≤ maxSafeJsonI64) :
    cs.foldl (fun total c => satI64 (total + c.value)) sum = sum + componentSum cs := by
  induction cs generalizing sum with
  | nil => simp [componentSum]
  | cons c cs ih =>
    obtain ⟨-, -, hlo, hup⟩ := hc c List.mem_cons_self
    have hlen : 0 ≤ bound * cs.length := mul_nonneg hb (Int.natCast_nonneg _)
    rw [mul_length_cons] at hl hu
    rw [List.foldl_cons, satI64_of_safe (by omega) (by omega),
      ih (fun d hd => hc d (List.mem_cons_of_mem c hd)) (by omega) (by omega)]
    simp only [componentSum, List.map_cons, List.sum_cons, add_assoc]

theorem componentSum_mem (hc : ∀ c ∈ cs, BoundedComponent bound c) :
    -(bound * cs.length) ≤ componentSum cs ∧ componentSum cs ≤ bound * cs.length := by
  induction cs with
  | nil => simp [componentSum]
  | cons c cs ih =>
    have := ih fun d hd => hc d (List.mem_cons_of_mem c hd)
    have hlo := (hc c List.mem_cons_self).lower
    have hup := (hc c List.mem_cons_self).upper
    have hsum : componentSum (c :: cs) = c.value + componentSum cs := List.sum_cons
    rw [hsum, mul_length_cons]
    omega

theorem cappedUnits_mem (v : UInt64) (divisor : Nat) :
    -4294967296 ≤ cappedUnits v divisor 1024 ∧ cappedUnits v divisor 1024 ≤ 4294967296 := by
  have h : min (v.toNat / divisor) 1024 ≤ 1024 := min_le_right _ _
  unfold cappedUnits
  generalize min (v.toNat / divisor) 1024 = units at h
  omega

/-- A component that multiplies a bounded quantity by a weight. -/
theorem boundedComponent_scaled {key detail : String} {quantity weight : Int} (hk : validText key = true)
    (hd : validText detail = true) (hq : -4294967296 ≤ quantity ∧ quantity ≤ 4294967296)
    (hw : 0 ≤ weight ∧ weight ≤ 60) :
    BoundedComponent scoreBound ⟨key, satI64 (quantity * weight), detail⟩ := by
  have hl : -4294967296 * 60 ≤ quantity * weight := by nlinarith [hq.1, hw.1, hw.2]
  have hu : quantity * weight ≤ 4294967296 * 60 := by nlinarith [hq.2, hw.1, hw.2]
  have := satI64_mem (le_trans (by decide : -scoreBound ≤ _) hl) (le_trans hu (by decide : _ ≤ scoreBound)) (by decide)
  exact ⟨hk, hd, this.1, this.2⟩

theorem boundedComponent_const {value : Int} {key detail : String} (hk : validText key = true)
    (hd : validText detail = true) (hv : -bound ≤ value ∧ value ≤ bound) : BoundedComponent bound ⟨key, value, detail⟩ :=
  ⟨hk, hd, hv.1, hv.2⟩

theorem boundedComponent_neg {value : Int} {key detail : String} (h : BoundedComponent bound ⟨key, value, detail⟩) :
    BoundedComponent bound ⟨key, -value, detail⟩ :=
  ⟨h.key, h.detail, Int.neg_le_neg h.upper, Int.neg_le_of_neg_le h.lower⟩

theorem legible_quantity {n : Nat} {text suffix : String} (hn : Fits n text) (h : n ≤ 20) (hs : Legible 40 suffix) :
    validText (text ++ suffix) = true :=
  validText_of_legible ((hn.append_legible hs).mono (by omega))

theorem uint32_mem (n : UInt32) : -4294967296 ≤ (n.toNat : Int) ∧ (n.toNat : Int) ≤ 4294967296 := by
  have := n.toNat_lt
  omega

def componentKeys : List String :=
  ["priority", "cpu_capacity", "memory_capacity", "disk_capacity", "cpu_headroom", "queue_penalty",
    "running_job_penalty", "gpu_capacity", "source_cache", "preferred_node", "degraded_penalty"]

theorem key_ite {p : Prop} [Decidable p] (c : ScoreComponent) :
    (if p then [c] else []).map ScoreComponent.key <+ [c.key] := by
  split
  · exact List.Sublist.refl _
  · exact List.nil_sublist _

theorem keys_scoreComponents (job : JobSpec) (node : Node) (w : SchedulerWeights) :
    (scoreComponents job node w).map ScoreComponent.key <+ componentKeys := by
  simp only [scoreComponents, List.map_append]
  exact ((((List.Sublist.refl _).append (key_ite _)).append (key_ite _)).append (key_ite _)).append (key_ite _)

theorem length_scoreComponents (job : JobSpec) (node : Node) (w : SchedulerWeights) :
    (scoreComponents job node w).length ≤ 11 := by
  have := (keys_scoreComponents job node w).length_le
  rwa [List.length_map] at this

section Weights

variable {w : SchedulerWeights}

theorem bounded_gpuCapacity (hw : w = .balanced ∨ w = .performance) (job : JobSpec) (node : Node) :
    BoundedComponent scoreBound (gpuCapacity job node w) := by
  refine boundedComponent_scaled (by decide) (legible_quantity (fits_show64 _) (by decide) (by decide))
    (cappedUnits_mem _ _) ?_
  rcases hw with rfl | rfl <;> decide

theorem bounded_scoreComponents (hw : w = .balanced ∨ w = .performance) (job : JobSpec) (node : Node) :
    ∀ c ∈ scoreComponents job node w, BoundedComponent scoreBound c := by
  have hweights : (0 ≤ w.priority ∧ w.priority ≤ 60) ∧ (0 ≤ w.availableCpuCore ∧ w.availableCpuCore ≤ 60) ∧
      (0 ≤ w.availableMemoryGib ∧ w.availableMemoryGib ≤ 60) ∧ (0 ≤ w.availableDisk10Gib ∧ w.availableDisk10Gib ≤ 60) ∧
      (0 ≤ w.cpuHeadroomPercent ∧ w.cpuHeadroomPercent ≤ 60) ∧ (0 ≤ w.queueDepthPenalty ∧ w.queueDepthPenalty ≤ 60) ∧
      (0 ≤ w.runningJobPenalty ∧ w.runningJobPenalty ≤ 60) ∧
      (-scoreBound ≤ w.sourceCacheBonus ∧ w.sourceCacheBonus ≤ scoreBound) ∧
      (-scoreBound ≤ w.preferredNodeBonus ∧ w.preferredNodeBonus ≤ scoreBound) ∧
      (-scoreBound ≤ -w.degradedPenalty ∧ -w.degradedPenalty ≤ scoreBound) := by
    rcases hw with rfl | rfl <;> decide
  obtain ⟨hp, hcpu, hmem, hdisk, hhead, hqueue, hrun, hcache, hpref, hdeg⟩ := hweights
  intro c hc
  simp only [scoreComponents, List.mem_append, List.mem_cons, List.not_mem_nil, or_false] at hc
  rcases hc with ((((rfl | rfl | rfl | rfl | rfl | rfl | rfl) | hc) | hc) | hc) | hc
  · have h1 := node.priority.le_toInt
    have h2 := node.priority.toInt_lt
    refine boundedComponent_scaled (by decide) (validText_of_legible (Legible.mono ((legible_lit ?_ ?_).append
      (fits_int (e := 10) ?_ ?_)) ?_)) ⟨by omega, by omega⟩ hp
    · decide
    · decide
    · decide
    · omega
    · decide
  · exact boundedComponent_scaled (by decide) (legible_quantity (fits_show32 _) (by decide) (by decide))
      (uint32_mem _) hcpu
  · exact boundedComponent_scaled (by decide) (legible_quantity (fits_show64 _) (by decide) (by decide))
      (cappedUnits_mem _ _) hmem
  · exact boundedComponent_scaled (by decide) (legible_quantity (fits_show64 _) (by decide) (by decide))
      (cappedUnits_mem _ _) hdisk
  · exact boundedComponent_scaled (by decide) (legible_quantity (fits_show8 _) (by decide) (by decide))
      ⟨by omega, by omega⟩ hhead
  · exact boundedComponent_neg (boundedComponent_scaled (by decide)
      (legible_quantity (fits_show32 _) (by decide) (by decide)) (uint32_mem _) hqueue)
  · exact boundedComponent_neg (boundedComponent_scaled (by decide)
      (legible_quantity (fits_show32 _) (by decide) (by decide)) (uint32_mem _) hrun)
  · split at hc
    · rw [List.mem_singleton.1 hc]; exact bounded_gpuCapacity hw job node
    · cases hc
  · split at hc
    · rw [List.mem_singleton.1 hc]; exact boundedComponent_const (by decide) (by decide) hcache
    · cases hc
  · split at hc
    · rw [List.mem_singleton.1 hc]; exact boundedComponent_const (by decide) (by decide) hpref
    · cases hc
  · split at hc
    · rw [List.mem_singleton.1 hc]; exact boundedComponent_const (by decide) (by decide) hdeg
    · cases hc

end Weights

/-! ### Candidates -/

/-- The node of the context is the merged view of valid documents. -/
def SchedulingNode.Documented (n : SchedulingNode) : Prop :=
  ∃ view : NodeMergeView, view.toNode = .ok n.node ∧ view.receivedAt.Representable

/-- What a node must satisfy for its candidate to be bindable evidence about the job. -/
structure NodeBindable (job : JobSpec) (n : SchedulingNode) : Prop where
  name : byteCount n.node.name ≤ 256
  missing : (missingCapabilities job n.node).length ≤ 1
  capability : ∀ c ∈ missingCapabilities job n.node, byteCount c ≤ 235 ∧ hasControl c = false
  device : ∀ request deviceId, job.effectiveResourceRequest.gpu = some request → request.deviceId = some deviceId →
    n.node.resources.gpus ≠ [] → noDeviceMatches n request 0 n.node.resources.gpus = true → byteCount deviceId ≤ 231

theorem SchedulingNode.Documented.name (h : n.Documented) : boundedText 128 n.node.name = true := by
  obtain ⟨view, hv, -⟩ := h
  simp only [NodeMergeView.toNode, seq_eq_ok, pure_eq_ok, NodeConfig.validate, ensure_eq_ok] at hv
  obtain ⟨⟨hname, -⟩, -, -, hnode⟩ := hv
  rw [← hnode]
  exact hname

theorem SchedulingNode.Documented.lastSeenAt (h : n.Documented) :
    ∀ s, n.node.lastSeenAt = some s → s.Representable := by
  obtain ⟨view, hv, hr⟩ := h
  simp only [NodeMergeView.toNode, seq_eq_ok, pure_eq_ok] at hv
  obtain ⟨-, -, -, hnode⟩ := hv
  intro s hs
  rw [← hnode] at hs
  cases hs
  exact hr

/-- A text between two literals is valid evidence exactly when it is short and printable. -/
theorem validText_between {a s b : String} {room : Nat} (ha : Legible (byteCount a) a) (hb : hasControl b = false)
    (hroom : byteCount a + room + byteCount b = 256) :
    validText (a ++ s ++ b) = true ↔ byteCount s ≤ room ∧ hasControl s = false := by
  simp only [validText, maxTextBytes, blank_append, ha.nonblank, byteCount_append, hasControl_append, ha.printable, hb,
    Bool.false_and, Bool.not_false, Bool.true_and, Bool.false_or, Bool.or_false, Bool.and_eq_true, decide_eq_true_eq,
    Bool.not_eq_true']
  exact and_congr_left fun _ => by omega

theorem validText_missingCapability (c : String) :
    validText (missingCapability c).detail = true ↔ byteCount c ≤ 235 ∧ hasControl c = false :=
  validText_between (legible_lit (by decide) (by decide)) (by decide) (by decide)

theorem validText_absentDevice (deviceId : String) :
    validText (absentDeviceDetail deviceId) = true ↔ byteCount deviceId ≤ 231 ∧ hasControl deviceId = false :=
  validText_between (legible_lit (by decide) (by decide)) (by decide) (by decide)

theorem legible_missing (job : JobSpec) (node : Node) :
    LegibleReasons ((missingCapabilities job node).map missingCapability) ↔
      ∀ c ∈ missingCapabilities job node, byteCount c ≤ 235 ∧ hasControl c = false := by
  simp only [LegibleReasons, List.forall_mem_map, validText_missingCapability]

theorem legible_gpuReasons (hjob : job.validate = .ok ()) (n : SchedulingNode) :
    LegibleReasons (gpuReasons job n) ↔
      ∀ request deviceId, job.effectiveResourceRequest.gpu = some request → request.deviceId = some deviceId →
        n.node.resources.gpus ≠ [] → noDeviceMatches n request 0 n.node.resources.gpus = true →
        byteCount deviceId ≤ 231 := by
  unfold gpuReasons
  cases hg : job.effectiveResourceRequest.gpu with
  | some request =>
    simp only [legible_gpuResource, validText_absentDevice]
    constructor
    · intro h request' deviceId hr hd hne hm
      cases hr
      exact (h deviceId hd hne hm).1
    · intro h deviceId hd hne hm
      exact ⟨h request deviceId rfl hd hne hm, JobSpec.deviceId_printable hjob hg hd⟩
  | none =>
    simp only [reduceCtorEq, false_imp_iff, implies_true, iff_true]
    split
    · exact legible_gpu _ _
    · split
      · exact legible_gpu _ _
      · exact legibleReasons_nil

/-- The codes of a rejection in the order in which the scheduler tests for them. -/
def codeOrder : List RejectionCode :=
  [.disabled, .offline, .draining, .staleNode, .policyJobKindDenied, .batteryDisallowed, .cpuLimitExceeded,
    .cpuEwmaLimitExceeded, .memoryLimitExceeded, .temperatureLimitExceeded, .containmentLimitReached,
    .slotLimitReached, .manualNodeRequired, .manualNodeMismatch, .wrongOs, .wrongArchitecture, .missingCapability,
    .insufficientCpu, .insufficientMemory, .insufficientDisk, .gpuRequired, .gpuUnavailable, .gpuVendorMismatch,
    .insufficientVram, .exclusiveGpuUnavailable]

theorem codeOrder_nodup : codeOrder.Nodup := by decide +kernel

theorem codes_missing (job : JobSpec) (node : Node) :
    codes ((missingCapabilities job node).map missingCapability) =
      List.replicate (missingCapabilities job node).length .missingCapability := by
  simp only [codes, List.map_map]
  exact List.map_const'

/-- A node is rejected at most once per code exactly when it lacks at most one capability. -/
theorem codes_hardRejections (job : JobSpec) (n : SchedulingNode) (t : DateTime) (ttl : Int) :
    ((codes (hardRejections job n t ttl)).Nodup ∧ (hardRejections job n t ttl).length ≤ maxEvidenceItems) ↔
      (missingCapabilities job n.node).length ≤ 1 := by
  simp only [hardRejections, codes_append]
  constructor
  · intro ⟨h, _⟩
    have := h.of_append_left.of_append_left.of_append_right
    rwa [codes_missing, List.nodup_replicate] at this
  · intro h
    have hmissing : codes ((missingCapabilities job n.node).map missingCapability) <+ [.missingCapability] := by
      rw [codes_missing]
      exact List.replicate_sublist_replicate _ |>.2 h
    have hsub : _ <+ codeOrder := (((((((((codes_reject (!n.node.enabled) .disabled "node is disabled").append
      (codes_status n.node.status)).append (codes_stale n.node.lastSeenAt t ttl)).append
      (codes_policy job n)).append (codes_slots job n)).append (codes_manual job n.node)).append
      (codes_os job n.node)).append (codes_arch job n.node)).append hmissing).append
      (codes_resources job.effectiveResourceRequest n.node) |>.append (codes_gpuReasons job n)
    refine ⟨List.Nodup.sublist hsub codeOrder_nodup, ?_⟩
    have := hsub.length_le
    simp only [← codes_append] at this
    rw [codes, List.length_map] at this
    exact this.trans (by decide)

theorem legible_hardRejections (ht : t.Representable) (hs : ∀ s, n.node.lastSeenAt = some s → s.Representable) :
    LegibleReasons (hardRejections job n t defaultNodeFreshnessTtl) ↔
      LegibleReasons ((missingCapabilities job n.node).map missingCapability) ∧ LegibleReasons (gpuReasons job n) := by
  simp only [hardRejections, legibleReasons_append, legible_status, legible_stale ht hs, legible_policy, legible_slots,
    legible_manual, legible_os, legible_arch, legible_resources, true_and, and_true,
    legibleReasons_reject (show validText "node is disabled" = true by decide)]

@[simp] theorem evaluateNode_nodeId (job : JobSpec) (w : SchedulerWeights) (t : DateTime) (ttl : Int)
    (n : SchedulingNode) : (evaluateNode job w t ttl n).nodeId = n.node.id := by
  simp only [evaluateNode]
  split <;> rfl

@[simp] theorem evaluateNode_nodeName (job : JobSpec) (w : SchedulerWeights) (t : DateTime) (ttl : Int)
    (n : SchedulingNode) : (evaluateNode job w t ttl n).nodeName = n.node.name := by
  simp only [evaluateNode]
  split <;> rfl

theorem evaluateNode_score {w : SchedulerWeights} {ttl : Int} (h : (evaluateNode job w t ttl n).eligible = true) :
    ∃ score, (evaluateNode job w t ttl n).score = some score := by
  simp only [evaluateNode] at h ⊢
  split at h
  · cases h
  · rename_i hr
    exact ⟨_, by rw [if_neg hr]⟩

theorem validateCandidate_scored {w : SchedulerWeights} (hw : w = .balanced ∨ w = .performance) {ttl : Int}
    (hr : hardRejections job n t ttl = []) : validateCandidate (evaluateNode job w t ttl n) = .ok () := by
  have hc := bounded_scoreComponents hw job n.node
  have hlen := length_scoreComponents job n.node w
  have hroom : scoreBound * (scoreComponents job n.node w).length ≤ maxSafeJsonI64 := by
    unfold scoreBound maxSafeJsonI64
    omega
  have hb : (0 : Int) ≤ scoreBound := by decide
  have hfold := @foldl_satI64 _ _ 0 hc hb (by omega) (by omega)
  have hsum := @validateScoreComponents_ok _ _ [] 0 hc
    ((keys_scoreComponents job n.node w).nodup (by decide)) (fun _ _ => List.not_mem_nil) hb (by omega) (by omega)
  have hmem := componentSum_mem hc
  have hsafe : isSafeJsonI64 (0 + componentSum (scoreComponents job n.node w)) = true :=
    isSafeJsonI64_iff.2 (by omega)
  have hne : (scoreComponents job n.node w).isEmpty = false := rfl
  simp only [evaluateNode, hr, List.isEmpty_nil, Bool.not_true, Bool.false_eq_true, if_false, validateCandidate, if_true,
    validateEligibleCandidate, seq_eq_ok, ensure_eq_ok, hfold, hsum, ok_bind, hne, hsafe, Bool.not_false,
    Bool.true_and, decide_eq_true_eq, true_and, and_true]
  exact hlen.trans (by decide)

theorem validateCandidate_rejected {w : SchedulerWeights} {ttl : Int} (hr : hardRejections job n t ttl ≠ []) :
    validateCandidate (evaluateNode job w t ttl n) = .ok () ↔
      LegibleReasons (hardRejections job n t ttl) ∧ (missingCapabilities job n.node).length ≤ 1 := by
  have hne : (hardRejections job n t ttl).isEmpty = false := by simpa using hr
  rw [← codes_hardRejections job n t ttl]
  simp only [evaluateNode, hne, Bool.not_false, if_true, validateCandidate, Bool.false_eq_true, if_false,
    validateIneligibleCandidate, seq_eq_ok, ensure_eq_ok, Option.isNone_none, List.isEmpty_nil, Bool.true_and,
    decide_eq_true_eq, true_and, validateRejections_eq_ok, List.not_mem_nil, not_false_eq_true, implies_true, and_true]
  constructor
  · rintro ⟨h1, h2, h3⟩
    exact ⟨h2, h3, h1⟩
  · rintro ⟨h2, h3, h1⟩
    exact ⟨h1, h2, h3⟩

/-- The candidate of a documented node is bindable exactly when the node is. -/
theorem candidateBindable_iff (hjob : job.validate = .ok ()) {w : SchedulerWeights}
    (hw : w = .balanced ∨ w = .performance) (ht : t.Representable) (hdoc : n.Documented) (hid : n.node.id ≠ .nil) :
    CandidateBindable (evaluateNode job w t defaultNodeFreshnessTtl n) ↔ NodeBindable job n := by
  have hname : validText n.node.name = true ↔ byteCount n.node.name ≤ 256 := by
    have := hdoc.name
    simp only [boundedText, Bool.and_eq_true, Bool.not_eq_true', decide_eq_true_eq] at this
    rw [validText, this.1.1, this.2, Bool.not_false, Bool.true_and, Bool.and_true]
    exact decide_eq_true_iff
  have hgpu := legible_gpuReasons hjob n
  by_cases hr : hardRejections job n t defaultNodeFreshnessTtl = []
  · -- an eligible node lacks no capability and no device
    have hmissing : missingCapabilities job n.node = [] := by
      simp only [hardRejections, List.append_eq_nil_iff, List.map_eq_nil_iff] at hr
      exact hr.1.1.2
    have hreasons : gpuReasons job n = [] := by
      simp only [hardRejections, List.append_eq_nil_iff] at hr
      exact hr.2
    rw [hreasons] at hgpu
    refine ⟨fun h => ⟨hname.1 (by simpa using h.name), by simp [hmissing], by simp [hmissing],
      hgpu.1 legibleReasons_nil⟩, fun h => ⟨by simpa using hid, by simpa using hname.2 h.name,
      validateCandidate_scored hw hr⟩⟩
  · have hlegible := @legible_hardRejections _ job _ ht hdoc.lastSeenAt
    rw [legible_missing, hgpu] at hlegible
    have hev := validateCandidate_rejected (w := w) hr
    rw [hlegible] at hev
    refine ⟨fun h => ?_, fun h => ⟨by simpa using hid, by simpa using hname.2 h.name,
      hev.2 ⟨⟨h.capability, h.device⟩, h.missing⟩⟩⟩
    obtain ⟨⟨hcap, hdev⟩, hmiss⟩ := hev.1 h.evidence
    exact ⟨hname.1 (by simpa using h.name), hmiss, hcap, hdev⟩

/-! ### Decisions -/

theorem maxCandidate_mem {cs : List PlacementCandidateExplain} {best : PlacementCandidateExplain}
    (h : maxCandidate cs = some best) : best ∈ cs := by
  cases cs with
  | nil => cases h
  | cons c cs =>
    simp only [maxCandidate, Option.some.injEq] at h
    subst h
    -- the fold keeps an element of the list it started from
    have : ∀ (l : List PlacementCandidateExplain) (b : PlacementCandidateExplain),
        l.foldl (fun best c => if compareCandidates best c = .gt then best else c) b ∈ b :: l := by
      intro l
      induction l with
      | nil => intro b; simp
      | cons d l ih =>
        intro b
        rw [List.foldl_cons]
        split
        · exact List.mem_cons.2 ((List.mem_cons.1 (ih b)).imp_right (List.mem_cons_of_mem d))
        · exact List.mem_cons_of_mem b (ih d)
    exact this cs c

/-- A successful decision: the selected node is an eligible candidate, and the explanation lists the
candidates of all nodes. -/
theorem scheduleContextsAt_eq_ok {scheduler : Scheduler} {nodes : List SchedulingNode} {d : PlacementPlanDecision}
    (h : scheduler.scheduleContextsAt job nodes t = .ok d) :
    job.validate = .ok () ∧ ∃ best ∈ nodes.map
        (evaluateNode job (scheduler.weights job.placementPolicy) t scheduler.nodeFreshnessTtl),
      best.eligible = true ∧ d.nodeId = best.nodeId ∧ best.score = some d.score ∧
      d.explanation.policy = job.placementPolicy ∧ d.explanation.selectedNodeId = some d.nodeId ∧
      d.explanation.candidates = (nodes.map (evaluateNode job (scheduler.weights job.placementPolicy) t
        scheduler.nodeFreshnessTtl)).insertionSort candidateLe := by
  simp only [Scheduler.scheduleContextsAt, seq_eq_ok, mapError_eq_ok] at h
  refine ⟨h.1, ?_⟩
  replace h := h.2
  split at h
  · rename_i best hbest
    cases h
    have hmem := List.mem_filter.1 (maxCandidate_mem hbest)
    obtain ⟨n, -, rfl⟩ := List.mem_map.1 hmem.1
    obtain ⟨score, hscore⟩ := evaluateNode_score hmem.2
    refine ⟨_, hmem.1, hmem.2, rfl, by rw [hscore]; rfl, rfl, ?_, rfl⟩
    rw [hbest]
    rfl
  · cases h

/-- In a list without repeated keys, searching for the key of a member finds the member. -/
theorem find?_key {α κ : Type} [DecidableEq κ] {key : α → κ} {l : List α} (hn : (l.map key).Nodup) {a : α}
    (ha : a ∈ l) : (l.find? fun b => key b = key a) = some a := by
  induction l with
  | nil => cases ha
  | cons b l ih =>
    obtain ⟨hb, hn⟩ := List.nodup_cons.1 hn
    rcases List.mem_cons.1 ha with rfl | ha
    · simp
    · have hne : key b ≠ key a := fun e => hb (e ▸ List.mem_map_of_mem ha)
      rw [List.find?_cons_of_neg (by simpa using hne)]
      exact ih hn ha

theorem Scheduler.default_weights (policy : PlacementPolicy) :
    Scheduler.default.weights policy = .balanced ∨ Scheduler.default.weights policy = .performance := by
  cases policy
  · exact .inl rfl
  · exact .inr rfl
  · exact .inl rfl

/-- For documented nodes with distinct identifiers, a decision of the default scheduler is bindable
evidence exactly when there are at most 256 nodes and each of them is bindable. -/
theorem validateExplanation_iff {nodes : List SchedulingNode} {d : PlacementPlanDecision}
    (hids : (nodes.map fun n => n.node.id).Nodup) (hnil : ∀ n ∈ nodes, n.node.id ≠ .nil)
    (hdoc : ∀ n ∈ nodes, n.Documented) (ht : t.Representable)
    (hd : Scheduler.default.scheduleContextsAt job nodes t = .ok d) :
    validateExplanation d = .ok () ↔ nodes.length ≤ maxCandidates ∧ ∀ n ∈ nodes, NodeBindable job n := by
  obtain ⟨hjob, best, hbest, helig, hnode, hscore, -, hsel, hcands⟩ := scheduleContextsAt_eq_ok hd
  set cands := nodes.map (evaluateNode job (Scheduler.default.weights job.placementPolicy) t
    Scheduler.default.nodeFreshnessTtl) with hc
  have hperm : (cands.insertionSort candidateLe).Perm cands := List.perm_insertionSort _ _
  have hkeys : (cands.map PlacementCandidateExplain.nodeId).Nodup := by
    simpa [hc, Function.comp_def] using hids
  have hsorted : ((cands.insertionSort candidateLe).map PlacementCandidateExplain.nodeId).Nodup :=
    (hperm.map _).nodup_iff.2 hkeys
  have hmem : best ∈ cands.insertionSort candidateLe := hperm.mem_iff.2 hbest
  have hne : (cands.insertionSort candidateLe).isEmpty = false := by
    cases hl : cands.insertionSort candidateLe with
    | nil => rw [hl] at hmem; cases hmem
    | cons => rfl
  have hfind : (cands.insertionSort candidateLe).find? (fun c => c.nodeId = d.nodeId) = some best := by
    rw [hnode]
    exact find?_key hsorted hmem
  have hall : (∀ c ∈ cands.insertionSort candidateLe, CandidateBindable c) ↔ ∀ n ∈ nodes, NodeBindable job n := by
    refine (forall_congr' fun c => by rw [hperm.mem_iff]).trans ?_
    rw [hc, List.forall_mem_map]
    exact forall₂_congr fun n hn =>
      candidateBindable_iff hjob (Scheduler.default_weights _) ht (hdoc n hn) (hnil n hn)
  have hlen : (cands.insertionSort candidateLe).length = nodes.length := by
    rw [hperm.length_eq, hc, List.length_map]
  have hloop := fun r => @validateCandidates_eq_ok d.nodeId [] none r _ hsorted
    (fun _ _ => List.not_mem_nil) (fun h => by cases h)
  simp only [Option.none_or, hfind, hall] at hloop
  simp only [validateExplanation, seq_eq_ok, ensure_eq_ok, hsel, hcands, hne, hlen, Bool.not_false, Bool.true_and,
    decide_true, decide_eq_true_eq, true_and]
  simp only [bind_eq_ok, hloop]
  constructor
  · rintro ⟨h1, r, ⟨h2, rfl⟩, -⟩
    exact ⟨h1, h2⟩
  · rintro ⟨h1, h2⟩
    exact ⟨h1, some best, ⟨h2, rfl⟩, by simp [helig, hscore]⟩

/-- The scheduler's evidence about at most 256 documented nodes is bindable exactly when every node is:
its name takes at most 256 bytes, it lacks at most one required capability, and the names of a
capability or a device that it lacks fit into a reason. -/
theorem evidence_bindable_iff {job : JobSpec} {nodes : List SchedulingNode} {t : DateTime} {d : PlacementPlanDecision}
    (hlen : nodes.length ≤ 256) (hids : (nodes.map fun n => n.node.id).Nodup) (hnil : ∀ n ∈ nodes, n.node.id ≠ .nil)
    (hdoc : ∀ n ∈ nodes, n.Documented) (ht : t.Representable)
    (hd : Scheduler.default.scheduleContextsAt job nodes t = .ok d) :
    validateExplanation d = .ok () ↔ ∀ n ∈ nodes, NodeBindable job n := by
  rw [validateExplanation_iff hids hnil hdoc ht hd]
  exact and_iff_right hlen

/-- A worker without graphics devices. -/
def sampleNode (id : Uuid) (name : String) (capabilities : Capabilities) (seenAt : DateTime) : Node where
  id := id
  name := name
  enabled := true
  transport := .managed "https://worker.invalid:9443" "worker"
  os := .linux
  arch := .x8664
  status := .online
  capabilities := capabilities
  resources := { logicalCpuCores := 8, availableCpuCores := 8, memoryMib := 16384, availableMemoryMib := 8192,
                 diskMib := 102400, availableDiskMib := 51200, gpus := [] }
  load := { cpuPercent := 5, queueDepth := 0, runningJobs := 0 }
  priority := 0
  labels := .empty
  cachedSources := .empty
  lastSeenAt := some seenAt

/-- The view of the documents that enrollment writes for a node. -/
def sampleView (node : Node) (seenAt : DateTime) : NodeMergeView where
  id := node.id
  config := .fromNode node
  inventory := .fromNode node
  telemetry := .fromNode node seenAt
  receivedAt := seenAt
  availability := .available

def sampleContext (node : Node) : SchedulingNode where
  node := node
  allowedJobKinds := ∅
  allowOnBattery := true
  onBattery := false
  cpuEwmaPercent := 5
  memoryUsedPercent := 50
  temperatureC := none
  maxCpuPercent := none
  maxCpuEwmaPercent := none
  maxMemoryPercent := none
  maxTemperatureC := none
  configuredMaxSlots := 1
  containmentMaxSafeSlots := 1
  activeSlots := 0
  gpuDeviceIds := []
  gpuActiveReservations := []

def sampleJob (id : Uuid) (capabilities : Capabilities) (preferred : Option Uuid) : JobSpec where
  apiVersion := apiVersion
  id := id
  origin := none
  kind := .build
  source := .git "https://example.invalid/r.git" "0123456789abcdef0123456789abcdef01234567"
  requirements := { os := none, arch := none, capabilities := capabilities, minCpuCores := some 1,
                    minMemoryMib := none, minDiskMib := none, gpu := none }
  resourceRequest := none
  steps := [{ name := "b", shell := none, script := "make", workingDirectory := none, timeoutSeconds := none }]
  artifacts := { includes := [], excludes := [".git"], retentionDays := none }
  timeoutSeconds := none
  placementPolicy := .balanced
  preferredNodeId := preferred

def cudaAndDocker : Capabilities := ⟨["cuda", "docker"], by decide⟩

def epoch : DateTime := ⟨0⟩

/-- A node with both capabilities and one with neither. -/
def capableAndPlain : List SchedulingNode :=
  [sampleContext (sampleNode ⟨1⟩ "alpha" cudaAndDocker epoch), sampleContext (sampleNode ⟨2⟩ "beta" .empty epoch)]

theorem documented_sample {node : Node} (h : (sampleView node epoch).toNode = .ok node) :
    (sampleContext node).Documented :=
  ⟨sampleView node epoch, h, show epoch.Representable by decide⟩

theorem capableAndPlain_documented : ∀ n ∈ capableAndPlain, n.Documented := by
  intro n hn
  rcases List.mem_cons.1 hn with rfl | hn
  · exact documented_sample (by decide +kernel)
  · rw [List.mem_singleton.1 hn]
    exact documented_sample (by decide +kernel)

/-- The plain node is rejected twice for the same reason, so the decision for the capable one cannot
be bound. -/
theorem two_missing_capabilities_unbindable :
    capableAndPlain.length ≤ 256 ∧ (capableAndPlain.map fun n => n.node.id).Nodup ∧
      (∀ n ∈ capableAndPlain, n.node.id ≠ .nil) ∧ (∀ n ∈ capableAndPlain, n.Documented) ∧ epoch.Representable ∧
      (sampleJob ⟨7⟩ cudaAndDocker none).validate = .ok () ∧
      ∃ d, Scheduler.default.scheduleContextsAt (sampleJob ⟨7⟩ cudaAndDocker none) capableAndPlain epoch = .ok d ∧
        d.nodeId = ⟨1⟩ ∧ validateExplanation d = .error .duplicateRejectionCode := by
  refine ⟨by decide, by decide, by decide, capableAndPlain_documented, by decide, by decide +kernel, _, rfl, ?_, ?_⟩
  · decide +kernel
  · decide +kernel

theorem evidence_bindable_capableAndPlain :
    ∃ d, Scheduler.default.scheduleContextsAt (sampleJob ⟨7⟩ .empty none) capableAndPlain epoch = .ok d ∧
      (validateExplanation d = .ok () ↔ ∀ n ∈ capableAndPlain, NodeBindable (sampleJob ⟨7⟩ .empty none) n) :=
  ⟨_, rfl, evidence_bindable_iff (t := epoch) (by decide) (by decide) (by decide) capableAndPlain_documented
    (by decide) rfl⟩

end CYC
