import ClusterYourCodex.Spec.Fleet

/-! The identity of graphics devices. A device of the inventory is joined with an entry of the telemetry, by its stable
id or by its position, and a reservation is charged to a device by the name that the two documents give it. Names are
one-to-one and last from report to report exactly if every device of the inventory has a stable id. -/

namespace CYC

open Checked

variable {gpu : GpuInventory} {ids : Nat → Option String}

/-! ### Keys of lists -/

/-- A key is found at one position at most. -/
theorem nodup_filterMap_iff {α κ : Type} {key : α → Option κ} {l : List α} : (l.filterMap key).Nodup ↔
    ∀ (i j : Nat) (k : κ), (l[i]?).bind key = some k → (l[j]?).bind key = some k → i = j := by
  induction l with
  | nil => simp
  | cons a l ih =>
    have hmem : ∀ k, k ∈ l.filterMap key ↔ ∃ i : Nat, (l[i]?).bind key = some k := by
      intro k
      rw [List.mem_filterMap]
      constructor
      · rintro ⟨b, hb, hk⟩
        obtain ⟨i, hi⟩ := List.mem_iff_getElem?.1 hb
        exact ⟨i, by rw [hi, Option.bind_some, hk]⟩
      · rintro ⟨i, hi⟩
        obtain ⟨b, hb, hk⟩ := Option.bind_eq_some_iff.1 hi
        exact ⟨b, List.mem_of_getElem? hb, hk⟩
    cases ha : key a with
    | none =>
      rw [List.filterMap_cons_none ha, ih]
      constructor
      · intro h i j k hi hj
        cases i with
        | zero => simp [ha] at hi
        | succ i =>
          cases j with
          | zero => simp [ha] at hj
          | succ j => exact congrArg (· + 1) (h i j k hi hj)
      · intro h i j k hi hj
        exact Nat.succ_inj.1 (h (i + 1) (j + 1) k hi hj)
    | some b =>
      rw [List.filterMap_cons_some ha, List.nodup_cons, ih, hmem]
      constructor
      · rintro ⟨hnew, h⟩ i j k hi hj
        cases i with
        | zero =>
          cases j with
          | zero => rfl
          | succ j =>
            refine absurd ⟨j, ?_⟩ hnew
            have hk : b = k := by simpa [ha] using hi
            rw [hk]
            exact hj
        | succ i =>
          cases j with
          | zero =>
            refine absurd ⟨i, ?_⟩ hnew
            have hk : b = k := by simpa [ha] using hj
            rw [hk]
            exact hi
          | succ j => exact congrArg (· + 1) (h i j k hi hj)
      · intro h
        refine ⟨?_, fun i j k hi hj => Nat.succ_inj.1 (h (i + 1) (j + 1) k hi hj)⟩
        rintro ⟨i, hi⟩
        cases h 0 (i + 1) b (by simp [ha]) hi

/-! ### What the validators accept -/

section Validation

variable {telemetry : NodeTelemetry} {inventory : NodeInventory}

theorem validateGpus_eq_ok {seen : List String} {gpus : List GpuTelemetry} {u : Unit} :
    NodeTelemetry.validateGpus seen gpus = .ok u ↔
      (∀ gpu ∈ gpus, gpu.utilizationPercent.all (· ≤ 100) = true ∧ NodeTelemetry.temperatureInRange gpu.temperatureC = true ∧
        ∀ s ∈ gpu.stableId, boundedText 256 s = true) ∧
      (gpus.filterMap GpuTelemetry.stableId).Nodup ∧ ∀ s ∈ gpus.filterMap GpuTelemetry.stableId, s ∉ seen := by
  induction gpus generalizing seen with
  | nil => simp [NodeTelemetry.validateGpus]
  | cons gpu gpus ih =>
    rw [NodeTelemetry.validateGpus, seq_eq_ok, seq_eq_ok, ensure_eq_ok, ensure_eq_ok]
    cases hid : gpu.stableId with
    | none =>
      simp only [ih, List.filterMap_cons_none hid, List.forall_mem_cons, hid]
      constructor
      · rintro ⟨hu, ht, hrest, hnodup, hnew⟩
        exact ⟨⟨⟨hu, ht, nofun⟩, hrest⟩, hnodup, hnew⟩
      · rintro ⟨⟨⟨hu, ht, -⟩, hrest⟩, hnodup, hnew⟩
        exact ⟨hu, ht, hrest, hnodup, hnew⟩
    | some s =>
      simp only [seq_eq_ok, ensure_eq_ok, Bool.and_eq_true, Bool.not_eq_true', List.contains_eq_mem, decide_eq_false_iff_not, ih,
        List.filterMap_cons_some hid, List.forall_mem_cons, List.nodup_cons, hid]
      constructor
      · rintro ⟨hu, ht, ⟨hbounded, hseen⟩, hrest, hnodup, hnew⟩
        refine ⟨⟨⟨hu, ht, ?_⟩, hrest⟩, ⟨fun hmem => hnew s hmem List.mem_cons_self, hnodup⟩, hseen,
          fun s' hs' hold => hnew s' hs' (List.mem_cons_of_mem s hold)⟩
        rintro _ ⟨⟩
        exact hbounded
      · rintro ⟨⟨⟨hu, ht, hbounded⟩, hrest⟩, ⟨hfresh, hnodup⟩, hseen, hnew⟩
        refine ⟨hu, ht, ⟨hbounded s rfl, hseen⟩, hrest, hnodup, fun s' hs' hold => ?_⟩
        rcases List.mem_cons.1 hold with rfl | hold
        · exact hfresh hs'
        · exact hnew s' hs' hold

theorem gpusMatch_iff {start : Nat} {gpus : List GpuInventory} : telemetry.gpusMatch start gpus = true ↔
    ∀ (i : Nat) gpu, gpus[i]? = some gpu →
      (telemetry.gpuForInventory (start + i) gpu).any (fun t => t.availableVramMib ≤ gpu.totalVramMib) = true := by
  induction gpus generalizing start with
  | nil => simp [NodeTelemetry.gpusMatch]
  | cons first gpus ih =>
    rw [NodeTelemetry.gpusMatch, Bool.and_eq_true, ih]
    constructor
    · rintro ⟨hfirst, hrest⟩ i gpu hget
      cases i with
      | zero =>
        cases hget
        exact hfirst
      | succ i =>
        have h := hrest i gpu hget
        rwa [Nat.add_assoc, Nat.add_comm 1 i] at h
    · intro h
      refine ⟨h 0 first rfl, fun i gpu hget => ?_⟩
      have h' := h (i + 1) gpu hget
      rwa [Nat.add_comm i 1, ← Nat.add_assoc] at h'

theorem telemetry_validate_gpus {u : Unit} (h : telemetry.validate inventory = .ok u) :
    telemetry.gpus.length = inventory.gpus.length ∧ (telemetry.gpus.filterMap GpuTelemetry.stableId).Nodup ∧
      ∀ (i : Nat) gpu, inventory.gpus[i]? = some gpu → ∃ t, telemetry.gpuForInventory i gpu = some t := by
  simp only [NodeTelemetry.validate, NodeTelemetry.validateShape, seq_eq_ok, validateGpus_eq_ok, ensure_eq_ok, Bool.and_eq_true,
    decide_eq_true_eq, gpusMatch_iff, Nat.zero_add] at h
  obtain ⟨⟨-, -, -, -, -, hnodup, -⟩, -, hlength, hjoin⟩ := h
  refine ⟨hlength, hnodup, fun i gpu hget => ?_⟩
  obtain ⟨t, ht, -⟩ := (Option.any_eq_true _ _).1 (hjoin i gpu hget)
  exact ⟨t, ht⟩

theorem inventory_validate_gpus {u : Unit} (h : inventory.validate = .ok u) :
    (∀ gpu ∈ inventory.gpus, ∀ s ∈ gpu.stableId, boundedText 256 s = true) ∧
      (inventory.gpus.filterMap GpuInventory.stableId).Nodup := by
  simp only [NodeInventory.validate, seq_eq_ok, ensure_eq_ok, Bool.and_eq_true, List.all_eq_true, decide_eq_true_eq] at h
  obtain ⟨-, ⟨hvalid, hnodup⟩, -⟩ := h
  refine ⟨fun gpu hgpu s hs => ?_, hnodup⟩
  have hgpuValid := hvalid gpu hgpu
  simp only [NodeInventory.validGpu, Bool.and_eq_true, Option.all_eq_true] at hgpuValid
  exact hgpuValid.1.2 s hs

end Validation

/-! ### Names -/

section Names

variable {telemetry later : NodeTelemetry} {inventory : NodeInventory}

/-- The position of the entry that a device is joined with. -/
def entryFor (telemetry : NodeTelemetry) (index : Nat) (gpu : GpuInventory) : Option Nat :=
  match gpu.stableId with
  | none => some index
  | some stableId => telemetry.gpus.findIdx? fun entry => entry.stableId = some stableId

/-- The join reads the entry at that position. -/
theorem gpuForInventory_eq (index : Nat) (gpu : GpuInventory) :
    telemetry.gpuForInventory index gpu = (entryFor telemetry index gpu).bind fun k => telemetry.gpus[k]? := by
  unfold NodeTelemetry.gpuForInventory entryFor
  cases gpu.stableId with
  | none => rfl
  | some stableId => exact List.find?_eq_bind_findIdx?_getElem?

/-- The names that a scheduling round uses. -/
def deviceNames (inventory : NodeInventory) (telemetry : NodeTelemetry) : List (Option String) :=
  gpuDeviceIds inventory.gpus 0 telemetry.gpus

theorem gpuDeviceIds_getElem? {inventory : List GpuInventory} {start : Nat} {entries : List GpuTelemetry} (i : Nat) :
    (gpuDeviceIds inventory start entries)[i]? = (entries[i]?).map fun t =>
      (((inventory[start + i]?).bind GpuInventory.stableId).or t.stableId).or (some ("gpu-index-" ++ toString (start + i))) := by
  induction entries generalizing start i with
  | nil => rfl
  | cons t entries ih =>
    cases i with
    | zero => rfl
    | succ i =>
      rw [gpuDeviceIds, List.getElem?_cons_succ, List.getElem?_cons_succ, ih]
      have hshift : start + 1 + i = start + (i + 1) := by omega
      rw [hshift]

/-- The name of a device: its own stable id, that of its entry, or one made of its position. -/
def nameOf (index : Nat) (gpu : GpuInventory) (entry : Option GpuTelemetry) : String :=
  (gpu.stableId.or (entry.bind GpuTelemetry.stableId)).getD ("gpu-index-" ++ toString index)

/-- Join and names are one-to-one. -/
structure OneToOne (inventory : NodeInventory) (telemetry : NodeTelemetry) : Prop where
  joined : ∀ (i : Nat) gpu, inventory.gpus[i]? = some gpu → ∃ k, entryFor telemetry i gpu = some k ∧ k < telemetry.gpus.length
  own : ∀ (i j : Nat) gpu gpu', inventory.gpus[i]? = some gpu → inventory.gpus[j]? = some gpu' →
    entryFor telemetry i gpu = entryFor telemetry j gpu' → i = j
  distinct : (deviceNames inventory telemetry).Nodup
  named : ∀ (i : Nat) gpu, inventory.gpus[i]? = some gpu →
    (deviceNames inventory telemetry)[i]? = some (some (nameOf i gpu (telemetry.gpuForInventory i gpu)))

/-- A reservation under the name is charged to the device at this position and to no other. -/
def ChargedAt (inventory : NodeInventory) (telemetry : NodeTelemetry) (name : String) (index : Nat) : Prop :=
  ∀ j, ((deviceNames inventory telemetry)[j]?).join = some name ↔ j = index

/-- With this inventory, whatever valid telemetry arrives, devices are one-to-one with entries and names, and what is
reserved under a name in one round is charged to the same device in every later round. -/
def Identifies (inventory : NodeInventory) : Prop :=
  ∀ telemetry : NodeTelemetry, telemetry.validate inventory = .ok () → OneToOne inventory telemetry ∧
    ∀ later : NodeTelemetry, later.validate inventory = .ok () → ∀ (name : String) (index : Nat),
      ((deviceNames inventory telemetry)[index]?).join = some name → ChargedAt inventory later name index

theorem deviceNames_getElem? (i : Nat) : (deviceNames inventory telemetry)[i]? = (telemetry.gpus[i]?).map fun t =>
    (((inventory.gpus[i]?).bind GpuInventory.stableId).or t.stableId).or (some ("gpu-index-" ++ toString i)) := by
  rw [deviceNames, gpuDeviceIds_getElem?, Nat.zero_add]

/-! ### Stable ids are enough -/

/-- Devices with stable ids are named by them, whatever is reported. -/
theorem deviceNames_of_stable (hids : ∀ gpu ∈ inventory.gpus, gpu.stableId ≠ none)
    (hlength : telemetry.gpus.length = inventory.gpus.length) :
    deviceNames inventory telemetry = inventory.gpus.map GpuInventory.stableId := by
  apply List.ext_getElem?
  intro i
  rw [deviceNames_getElem?, List.getElem?_map]
  cases hgpu : inventory.gpus[i]? with
  | none =>
    rw [List.getElem?_eq_none_iff, ← hlength, ← List.getElem?_eq_none_iff] at hgpu
    rw [hgpu]
    rfl
  | some gpu =>
    obtain ⟨s, hs⟩ := Option.ne_none_iff_exists'.1 (hids gpu (List.mem_of_getElem? hgpu))
    have hlt : i < telemetry.gpus.length := by
      rw [hlength]
      exact (List.getElem?_eq_some_iff.1 hgpu).1
    rw [List.getElem?_eq_getElem hlt, Option.map_some, Option.bind_some, hs, Option.some_or, Option.some_or, Option.map_some, hs]

variable {i j : Nat} {s : String}

/-- Stable ids of different devices are different. -/
theorem stable_inj (hvalid : inventory.validate = .ok ()) {gpu' : GpuInventory}
    (hi : inventory.gpus[i]? = some gpu) (hj : inventory.gpus[j]? = some gpu') (hs : gpu.stableId = some s)
    (hs' : gpu'.stableId = some s) : i = j := by
  refine nodup_filterMap_iff.1 (inventory_validate_gpus hvalid).2 i j s ?_ ?_
  · rw [hi, Option.bind_some, hs]
  · rw [hj, Option.bind_some, hs']

/-- The entry of a device with a stable id has that id. -/
theorem entryFor_stable {k : Nat} (hs : gpu.stableId = some s) (h : entryFor telemetry i gpu = some k) :
    ∃ t, telemetry.gpus[k]? = some t ∧ t.stableId = some s := by
  unfold entryFor at h
  rw [hs] at h
  obtain ⟨hlt, hk, -⟩ := List.findIdx?_eq_some_iff_getElem.1 h
  exact ⟨_, List.getElem?_eq_getElem hlt, of_decide_eq_true hk⟩

theorem entryFor_lt (htelemetry : telemetry.validate inventory = .ok ())
    (hi : inventory.gpus[i]? = some gpu) : ∃ k, entryFor telemetry i gpu = some k ∧ k < telemetry.gpus.length := by
  obtain ⟨t, ht⟩ := (telemetry_validate_gpus htelemetry).2.2 i gpu hi
  rw [gpuForInventory_eq, Option.bind_eq_some_iff] at ht
  obtain ⟨k, hk, hget⟩ := ht
  exact ⟨k, hk, (List.getElem?_eq_some_iff.1 hget).1⟩

theorem oneToOne_of_stable (hvalid : inventory.validate = .ok ()) (hids : ∀ gpu ∈ inventory.gpus, gpu.stableId ≠ none)
    (htelemetry : telemetry.validate inventory = .ok ()) : OneToOne inventory telemetry where
  joined i gpu hi := entryFor_lt htelemetry hi
  own i j gpu gpu' hi hj hsame := by
    obtain ⟨k, hk, -⟩ := entryFor_lt htelemetry hi
    obtain ⟨s, hs⟩ := Option.ne_none_iff_exists'.1 (hids gpu (List.mem_of_getElem? hi))
    obtain ⟨s', hs'⟩ := Option.ne_none_iff_exists'.1 (hids gpu' (List.mem_of_getElem? hj))
    obtain ⟨t, ht, hts⟩ := entryFor_stable hs hk
    obtain ⟨t', ht', hts'⟩ := entryFor_stable hs' (hsame.symm.trans hk)
    cases ht.symm.trans ht'
    cases hts.symm.trans hts'
    exact stable_inj hvalid hi hj hs hs'
  distinct := by
    rw [deviceNames_of_stable hids (telemetry_validate_gpus htelemetry).1]
    refine List.Nodup.map_on ?_ (List.nodup_iff_getElem?_ne_getElem?.2 ?_)
    · intro gpu hgpu gpu' hgpu' hsame
      obtain ⟨i, hi⟩ := List.mem_iff_getElem?.1 hgpu
      obtain ⟨j, hj⟩ := List.mem_iff_getElem?.1 hgpu'
      obtain ⟨s, hs⟩ := Option.ne_none_iff_exists'.1 (hids gpu hgpu)
      have hij := stable_inj hvalid hi hj hs (hsame.symm.trans hs)
      subst hij
      exact Option.some.inj (hi.symm.trans hj)
    · intro i j hij hj hsame
      have hi := List.getElem?_eq_getElem (hij.trans hj)
      obtain ⟨s, hs⟩ := Option.ne_none_iff_exists'.1 (hids _ (List.mem_of_getElem? hi))
      exact absurd (stable_inj hvalid hi (hsame ▸ hi) hs hs) hij.ne
  named i gpu hi := by
    obtain ⟨s, hs⟩ := Option.ne_none_iff_exists'.1 (hids gpu (List.mem_of_getElem? hi))
    rw [deviceNames_of_stable hids (telemetry_validate_gpus htelemetry).1, List.getElem?_map, hi, Option.map_some, nameOf, hs,
      Option.some_or, Option.getD_some]

/-! ### Reports that are accepted -/

/-- A report with these stable ids. -/
def reportOf (inventory : NodeInventory) (ids : Nat → Option String) : NodeTelemetry where
  status := .online
  availableCpuCores := 0
  availableMemoryMib := 0
  availableDiskMib := 0
  gpus := inventory.gpus.mapIdx fun k _ => ⟨0, true, ids k, none, none⟩
  load := ⟨0, 0, 0⟩
  cachedSources := .empty
  observedAt := ⟨0⟩
  bootGeneration := 0
  bootId := .nil
  sequence := 0
  cpuEwmaPercent := 0
  activeRunIds := []
  powerSource := .unknown
  battery := none
  temperatureC := none

theorem reportOf_getElem? (i : Nat) :
    (reportOf inventory ids).gpus[i]? = (inventory.gpus[i]?).map fun _ => ⟨0, true, ids i, none, none⟩ :=
  List.getElem?_mapIdx

/-- It is accepted if its ids are readable, differ, and include those of the inventory. -/
theorem validate_reportOf
    (hbounded : ∀ (i : Nat) gpu, inventory.gpus[i]? = some gpu → ∀ s ∈ ids i, boundedText 256 s = true)
    (hdistinct : ∀ (i j : Nat) s, ids i = some s → ids j = some s → i = j)
    (hcover : ∀ (i : Nat) gpu, inventory.gpus[i]? = some gpu → ∀ s ∈ gpu.stableId, ∃ j < inventory.gpus.length, ids j = some s) :
    (reportOf inventory ids).validate inventory = .ok () := by
  have hlength : (reportOf inventory ids).gpus.length = inventory.gpus.length := List.length_mapIdx
  simp only [NodeTelemetry.validate, NodeTelemetry.validateShape, seq_eq_ok, validateGpus_eq_ok, ensure_eq_ok, Bool.and_eq_true,
    decide_eq_true_eq, gpusMatch_iff, Nat.zero_add]
  refine ⟨⟨⟨UInt8.zero_le, UInt8.zero_le⟩, rfl, rfl, ⟨rfl, List.nodup_nil⟩, ?_, ?_, by simp⟩, ⟨⟨?_, ?_⟩, ?_⟩, hlength,
    ?_⟩
  · intro entry hentry
    obtain ⟨i, hi⟩ := List.mem_iff_getElem?.1 hentry
    rw [reportOf_getElem?, Option.map_eq_some_iff] at hi
    obtain ⟨gpu, hgpu, rfl⟩ := hi
    exact ⟨rfl, rfl, hbounded i gpu hgpu⟩
  · rw [nodup_filterMap_iff]
    intro i j s hi hj
    rw [reportOf_getElem?, Option.bind_map, Option.bind_eq_some_iff] at hi hj
    obtain ⟨_, _, hi⟩ := hi
    obtain ⟨_, _, hj⟩ := hj
    exact hdistinct i j s hi hj
  · exact UInt32.zero_le
  · exact UInt64.zero_le
  · exact UInt64.zero_le
  · intro i gpu hgpu
    rw [Option.any_eq_true]
    cases hs : gpu.stableId with
    | none =>
      refine ⟨⟨0, true, ids i, none, none⟩, ?_, decide_eq_true UInt64.zero_le⟩
      unfold NodeTelemetry.gpuForInventory
      rw [hs]
      exact (reportOf_getElem? i).trans (by rw [hgpu]; rfl)
    | some s =>
      obtain ⟨j, hlt, hj⟩ := hcover i gpu hgpu s hs
      have hentry : (reportOf inventory ids).gpus[j]? = some ⟨0, true, ids j, none, none⟩ := by
        rw [reportOf_getElem?, List.getElem?_eq_getElem hlt]
        rfl
      unfold NodeTelemetry.gpuForInventory
      rw [hs]
      dsimp only
      cases hfind : (reportOf inventory ids).gpus.find? fun entry => decide (entry.stableId = some s) with
      | none =>
        rw [List.find?_eq_none] at hfind
        exact absurd (decide_eq_true hj) (hfind _ (List.mem_of_getElem? hentry))
      | some entry =>
        refine ⟨entry, rfl, ?_⟩
        obtain ⟨k, hk⟩ := List.mem_iff_getElem?.1 (List.mem_of_find?_eq_some hfind)
        rw [reportOf_getElem?, Option.map_eq_some_iff] at hk
        obtain ⟨-, -, rfl⟩ := hk
        exact decide_eq_true UInt64.zero_le

theorem names_reportOf (hi : inventory.gpus[i]? = some gpu) :
    ((deviceNames inventory (reportOf inventory ids))[i]?).join =
      (gpu.stableId.or (ids i)).or (some ("gpu-index-" ++ toString i)) := by
  rw [deviceNames_getElem?, reportOf_getElem?, hi]
  rfl

/-! ### And necessary -/

/-- Where one device has a stable id and another has none, a report may give the id of the first at the place of the
second: then both have one name. -/
theorem not_identifies_of_mixed (hvalid : inventory.validate = .ok ()) {other : GpuInventory}
    (hi : inventory.gpus[i]? = some gpu) (hj : inventory.gpus[j]? = some other) (hnone : gpu.stableId = none)
    (hs : other.stableId = some s) : ¬Identifies inventory := by
  intro hidentifies
  let ids : Nat → Option String := fun k => (inventory.gpus[Equiv.swap i j k]?).bind GpuInventory.stableId
  have hne : i ≠ j := by
    rintro rfl
    cases hi.symm.trans hj
    cases hnone.symm.trans hs
  have hids : ids i = some s := by
    show (inventory.gpus[Equiv.swap i j i]?).bind GpuInventory.stableId = some s
    rw [Equiv.swap_apply_left, hj, Option.bind_some, hs]
  have haccepted : (reportOf inventory ids).validate inventory = .ok () := by
    refine validate_reportOf ?_ ?_ ?_
    · intro k _ _ t ht
      obtain ⟨g, hg, hgt⟩ := Option.bind_eq_some_iff.1 ht
      exact (inventory_validate_gpus hvalid).1 g (List.mem_of_getElem? hg) t hgt
    · intro a b t ha hb
      obtain ⟨g, hg, hgt⟩ := Option.bind_eq_some_iff.1 ha
      obtain ⟨g', hg', hgt'⟩ := Option.bind_eq_some_iff.1 hb
      exact (Equiv.swap i j).injective (stable_inj hvalid hg hg' hgt hgt')
    · intro k g hg t ht
      refine ⟨Equiv.swap i j k, ?_, ?_⟩
      · have hlt : ∀ {m : Nat} {g : GpuInventory}, inventory.gpus[m]? = some g → m < inventory.gpus.length :=
          fun h => (List.getElem?_eq_some_iff.1 h).1
        rw [Equiv.swap_apply_def]
        split_ifs
        · exact hlt hj
        · exact hlt hi
        · exact hlt hg
      · show (inventory.gpus[Equiv.swap i j (Equiv.swap i j k)]?).bind GpuInventory.stableId = some t
        rw [Equiv.swap_apply_self, hg, Option.bind_some, ht]
  have hcharged := (hidentifies _ haccepted).2 _ haccepted s i (by rw [names_reportOf hi, hnone, Option.none_or, hids, Option.some_or])
  refine hne ((hcharged j).1 ?_).symm
  rw [names_reportOf hj, hs, Option.some_or, Option.some_or]

/-- Where none has one, a report may come with an id after one without. -/
theorem not_identifies_of_unnamed (hi : inventory.gpus[i]? = some gpu)
    (hnone : ∀ gpu ∈ inventory.gpus, gpu.stableId = none) : ¬Identifies inventory := by
  intro hidentifies
  have hcover : ∀ {ids : Nat → Option String} (k : Nat) g, inventory.gpus[k]? = some g → ∀ s ∈ g.stableId,
      ∃ j < inventory.gpus.length, ids j = some s := by
    intro ids k g hg s hs
    cases (hnone g (List.mem_of_getElem? hg)).symm.trans hs
  have hplain : (reportOf inventory fun _ => none).validate inventory = .ok () :=
    validate_reportOf (by nofun) (by nofun) hcover
  have hlater : (reportOf inventory fun k => if k = i then some "x" else none).validate inventory = .ok () := by
    refine validate_reportOf ?_ ?_ hcover
    · intro k _ _ s hs
      split_ifs at hs
      · cases hs
        decide
      · cases hs
    · intro a b s ha hb
      split_ifs at ha hb with hai hbi
      rw [hai, hbi]
  have hgpu := hnone gpu (List.mem_of_getElem? hi)
  have hcharged := (hidentifies _ hplain).2 _ hlater ("gpu-index-" ++ toString i) i
    (by rw [names_reportOf hi, hgpu]; rfl)
  have hname := (hcharged i).2 rfl
  rw [names_reportOf hi, hgpu, Option.none_or, if_pos rfl, Option.some_or, Option.some.injEq] at hname
  have hlength := congrArg String.length hname
  rw [String.length_append] at hlength
  have hprefix : "gpu-index-".length = 10 := by decide
  have hx : "x".length = 1 := by decide
  omega

/-- Devices keep their identity exactly if each has a stable id. -/
theorem identifies_iff (inventory : NodeInventory) (hvalid : inventory.validate = .ok ()) :
    Identifies inventory ↔ ∀ gpu ∈ inventory.gpus, gpu.stableId ≠ none := by
  constructor
  · intro hidentifies gpu hgpu hnone
    obtain ⟨i, hi⟩ := List.mem_iff_getElem?.1 hgpu
    by_cases hall : ∀ g ∈ inventory.gpus, g.stableId = none
    · exact not_identifies_of_unnamed hi hall hidentifies
    · rw [not_forall] at hall
      obtain ⟨other, hother⟩ := hall
      rw [Classical.not_imp] at hother
      obtain ⟨j, hj⟩ := List.mem_iff_getElem?.1 hother.1
      obtain ⟨s, hs⟩ := Option.ne_none_iff_exists'.1 hother.2
      exact not_identifies_of_mixed hvalid hi hj hnone hs hidentifies
  · intro hids telemetry htelemetry
    refine ⟨oneToOne_of_stable hvalid hids htelemetry, fun later hlater name index hname j => ?_⟩
    have hone := oneToOne_of_stable hvalid hids hlater
    have hsame : deviceNames inventory later = deviceNames inventory telemetry := by
      rw [deviceNames_of_stable hids (telemetry_validate_gpus hlater).1,
        deviceNames_of_stable hids (telemetry_validate_gpus htelemetry).1]
    have hget := Option.join_eq_some_iff.1 hname
    rw [hsame, Option.join_eq_some_iff]
    constructor
    · intro hj
      have hdistinct := hone.distinct
      rw [hsame] at hdistinct
      obtain ⟨hlt, hval⟩ := List.getElem?_eq_some_iff.1 hj
      obtain ⟨hlt', hval'⟩ := List.getElem?_eq_some_iff.1 hget
      exact (List.Nodup.getElem_inj_iff hdistinct).1 (hval.trans hval'.symm)
    · rintro rfl
      exact hget

end Names

/-- A node with two devices of one model. -/
def twoGpus (first second : Option String) : NodeInventory where
  transport := .local_
  os := .linux
  arch := .x8664
  capabilities := .empty
  logicalCpuCores := 8
  memoryMib := 16384
  diskMib := 65536
  gpus := [⟨.nvidia, "A", 8192, first, none⟩, ⟨.nvidia, "A", 8192, second, none⟩]
  cpuModel := "cpu"
  toolVersions := .empty
  workerVersion := "1"
  protocolVersion := CYC.protocolVersion
  containment := .default

theorem identifies_twoGpus : (twoGpus (some "x") (some "y")).validate = .ok () ∧ Identifies (twoGpus (some "x") (some "y")) :=
  have hvalid : (twoGpus (some "x") (some "y")).validate = .ok () := by decide
  ⟨hvalid, (identifies_iff _ hvalid).2 (by decide)⟩

/-- The second device has no stable id, and the report gives it the id of the first. -/
theorem twin_names : (twoGpus (some "x") none).validate = .ok () ∧
    (reportOf (twoGpus (some "x") none) fun k => if k = 1 then some "x" else none).validate (twoGpus (some "x") none) = .ok () ∧
    deviceNames (twoGpus (some "x") none) (reportOf (twoGpus (some "x") none) fun k => if k = 1 then some "x" else none) =
      [some "x", some "x"] ∧
    ¬Identifies (twoGpus (some "x") none) := by
  have hvalid : (twoGpus (some "x") none).validate = .ok () := by decide
  refine ⟨hvalid, by decide, by decide, ?_⟩
  exact not_identifies_of_mixed (i := 1) (j := 0) hvalid rfl rfl rfl rfl

end CYC
