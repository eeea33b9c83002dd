import ClusterYourCodex.Lib.JsonText
import ClusterYourCodex.Spec.StateFile

/-! What a state file survives. At every moment the value that was put in place last is in the file, or the file is missing
and exactly one backup holds the value, so that the next call can put it back. A backup that was left behind beside the file
breaks this: once the file is set aside as well, nobody knows which of the two to take. -/

namespace CYC.StateFile

open Traced

variable {T : Type} {codec : Codec T} {fileName suffix leaf : String} {bytes encoded : Bytes} {s s' : Shelf} {faults : Faults}

/-! ### Names -/

theorem isBackup_iff : isBackup fileName leaf = true ↔ (backupStem fileName).toList <+: leaf.toList := List.isPrefixOf_iff_prefix

theorem isBackup_backupName (fileName suffix : String) : isBackup fileName (backupName fileName suffix) = true := by
  rw [isBackup_iff, backupName, String.toList_append]
  exact List.prefix_append ..

theorem not_isBackup_self : isBackup fileName fileName = false := by
  rw [← Bool.not_eq_true, isBackup_iff]
  intro h
  have hlength := h.length_le
  simp only [backupStem, String.toList_append, List.length_append] at hlength
  have hdot : ".".toList.length = 1 := by decide
  omega

theorem not_isBackup_temporary : isBackup fileName (temporaryName fileName suffix) = false := by
  rw [← Bool.not_eq_true, isBackup_iff]
  intro h
  simp only [backupStem, temporaryName, String.toList_append, List.append_assoc] at h
  have htail := (List.prefix_append_right_inj _).1 ((List.prefix_append_right_inj _).1 h)
  have hbackup : ".backup-".toList = '.' :: 'b' :: "ackup-".toList := by decide
  have htemporary : ".tmp-".toList = '.' :: 't' :: "mp-".toList := by decide
  rw [hbackup, htemporary, List.cons_append, List.cons_append, List.cons_prefix_cons, List.cons_prefix_cons] at htail
  exact absurd htail.2.1 (by decide)

theorem temporary_ne : temporaryName fileName suffix ≠ fileName := by
  intro h
  have hlength := congrArg (fun x => x.toList.length) h
  simp only [temporaryName, String.toList_append, List.length_append] at hlength
  have hdot : ".".toList.length = 1 := by decide
  omega

theorem toList_toString (n : Nat) : (toString n).toList = Json.decimal n := Json.toString_nat n

theorem isAsciiDigit_of_mem {n : Nat} {c : Char} (h : c ∈ Json.decimal n) : Text.isAsciiDigit c = true :=
  Json.isDigit_of_mem_decimal h

theorem validField_decimal (n : Nat) : validField (Json.decimal n) = true := by
  obtain ⟨d, ds, hcons, -⟩ := Json.decimal_cons n
  simp only [validField, Bool.and_eq_true, List.all_eq_true]
  exact ⟨by rw [hcons]; rfl, fun c hc => isAsciiDigit_of_mem hc⟩

theorem validSuffix_unique (stamp : Stamp) : validStateBackupSuffix (uniqueStateSuffix stamp).toList = true := by
  have hdash : ∀ n, ∀ c ∈ Json.decimal n, decide (c = '-') = false := by
    intro n c hc
    have hdigit := isAsciiDigit_of_mem hc
    rw [decide_eq_false_iff_not]
    rintro rfl
    cases hdigit
  have htext : (uniqueStateSuffix stamp).toList =
      Json.decimal stamp.pid ++ '-' :: (Json.decimal stamp.nanos ++ '-' :: Json.decimal stamp.counter) := by
    have hsep : "-".toList = ['-'] := by decide
    simp only [uniqueStateSuffix, String.toList_append, toList_toString, hsep, List.append_assoc, List.cons_append,
      List.nil_append]
  rw [validStateBackupSuffix, htext, Text.splitOnChar_append (hdash _) (by decide), Text.splitOnChar_append (hdash _) (by decide),
    Text.splitOnChar_piece (hdash _)]
  simp only [validField_decimal, Bool.and_self]

theorem drop_backupName : (backupName fileName suffix).toList.drop (backupStem fileName).length = suffix.toList := by
  rw [backupName, String.toList_append, ← String.length_toList, List.drop_left]

/-! ### What is kept -/

variable (codec fileName) in
/-- The value that was put in place last is in the file or in the only backup, unless there was none. -/
inductive Kept (s : Shelf) : Prop
  | placed (bytes : Bytes) (hfile : s.folder.get fileName = some bytes) (hlast : s.installed.head? = some bytes)
      (hreadable : codec.readable bytes = true)
  | nothing (hfile : s.folder.get fileName = none) (hlast : s.installed = []) (hclear : s.folder.select (isBackup fileName) = [])
  | aside (leaf : String) (bytes : Bytes) (hfile : s.folder.get fileName = none)
      (honly : s.folder.select (isBackup fileName) = [leaf])
      (hvalid : validStateBackupSuffix (leaf.toList.drop (backupStem fileName).length) = true)
      (hleaf : s.folder.get leaf = some bytes) (hlast : s.installed.head? = some bytes) (hreadable : codec.readable bytes = true)

/-- Other files do not matter. -/
theorem Kept.frame (h : Kept codec fileName s) (hinstalled : s'.installed = s.installed)
    (hget : ∀ n, n = fileName ∨ isBackup fileName n = true → s'.folder.get n = s.folder.get n) : Kept codec fileName s' := by
  have hfile := hget fileName (.inl rfl)
  have hselect : (s'.folder.select (isBackup fileName)).Perm (s.folder.select (isBackup fileName)) :=
    Folder.select_perm fun n hn => hget n (.inr hn)
  cases h with
  | placed bytes hplaced hlast hreadable =>
    exact .placed bytes (hfile.trans hplaced) (by rw [hinstalled, hlast]) hreadable
  | nothing hnone hlast hclear =>
    rw [hclear] at hselect
    exact .nothing (hfile.trans hnone) (hinstalled.trans hlast) (List.perm_nil.1 hselect)
  | aside leaf bytes hnone honly hvalid hleaf hlast hreadable =>
    rw [honly] at hselect
    have hbackup : isBackup fileName leaf = true := (Folder.select_eq_singleton.1 honly).1
    exact .aside leaf bytes (hfile.trans hnone) (List.perm_singleton.1 hselect) hvalid ((hget leaf (.inr hbackup)).trans hleaf)
      (by rw [hinstalled, hlast]) hreadable

/-! ### Steps -/

section Steps

variable {P C : Shelf → Prop} {fails : Bool} {source destination name temporary backup : String}

variable {E Q : Unit → Shelf → Prop}

theorem triple_rename (hbefore : ∀ s, P s → C s)
    (hmoved : ∀ s bytes, P s → fails = false → s.folder.get source = some bytes →
      Q () { s with folder := (s.folder.remove source).set destination bytes } ∧
        C { s with folder := (s.folder.remove source).set destination bytes })
    (hfailed : ∀ s, P s → fails = true ∨ s.folder.get source = none → E () s) :
    Triple P (rename fails source destination) Q E C := by
  refine triple_step hbefore ?_ ?_
  · intro s s' hs h
    split at h
    · rename_i folder hrename
      cases h
      obtain ⟨bytes, hget, rfl⟩ := Folder.rename_eq_some.1 hrename
      exact hmoved s bytes hs rfl hget
    · cases h
  · intro s e hs h
    refine hfailed s hs ?_
    cases hget : s.folder.get source with
    | none => exact .inr rfl
    | some bytes =>
      rw [Folder.rename_isSome hget] at h
      cases fails with
      | true => exact .inl rfl
      | false => cases h

theorem triple_install (hbefore : ∀ s, P s → C s)
    (hmoved : ∀ s bytes, P s → fails = false → s.folder.get temporary = some bytes →
      Q () ⟨(s.folder.remove temporary).set fileName bytes, bytes :: s.installed⟩ ∧
        C ⟨(s.folder.remove temporary).set fileName bytes, bytes :: s.installed⟩)
    (hfailed : ∀ s, P s → fails = true ∨ s.folder.get temporary = none → E () s) :
    Triple P (install fails temporary fileName) Q E C := by
  refine triple_step hbefore ?_ ?_
  · intro s s' hs h
    split at h
    · rename_i bytes folder hget hrename
      cases h
      rw [Folder.rename_isSome hget] at hrename
      cases hrename
      exact hmoved s bytes hs rfl hget
    · cases h
  · intro s e hs h
    refine hfailed s hs ?_
    cases hget : s.folder.get temporary with
    | none => exact .inr rfl
    | some bytes =>
      rw [hget, Folder.rename_isSome hget] at h
      cases fails with
      | true => exact .inl rfl
      | false => cases h

theorem triple_put {E : StateError → Shelf → Prop} (hbefore : ∀ s, P s → C s)
    (hput : ∀ s, P s → Q () { s with folder := s.folder.set name bytes } ∧ C { s with folder := s.folder.set name bytes }) :
    Triple P (put name bytes) Q E C := by
  refine triple_step hbefore ?_ ?_
  · intro s s' hs h
    cases h
    exact hput s hs
  · intro s e hs h
    cases h

theorem triple_remove {E : StateError → Shelf → Prop} (hbefore : ∀ s, P s → C s) (hkept : ∀ s, P s → Q () s)
    (hremoved : ∀ s, P s → Q () { s with folder := s.folder.remove name } ∧ C { s with folder := s.folder.remove name }) :
    Triple P (remove fails name) Q E C := by
  refine triple_step hbefore ?_ ?_
  · intro s s' hs h
    cases fails with
    | true =>
      cases h
      exact ⟨hkept _ hs, hbefore _ hs⟩
    | false =>
      cases h
      exact hremoved s hs
  · intro s e hs h
    cases h

end Steps

/-! ### Calls -/

variable (codec fileName faults) in
/-- The file is as it was left, and if it might have to be set aside there is no backup. -/
structure Settled (s : Shelf) : Prop where
  last : s.folder.get fileName = s.installed.head?
  readable : ∀ bytes ∈ s.installed.head?, codec.readable bytes = true
  clear : s.folder.get fileName = none ∨ faults.replace = true → s.folder.select (isBackup fileName) = []

theorem Settled.kept (h : Settled codec fileName faults s) : Kept codec fileName s := by
  cases hlast : s.installed.head? with
  | none =>
    have hfile := h.last.trans hlast
    exact .nothing hfile (List.head?_eq_none_iff.1 hlast) (h.clear (.inl hfile))
  | some bytes => exact .placed bytes (h.last.trans hlast) hlast (h.readable bytes hlast)

theorem Settled.frame (h : Settled codec fileName faults s) (hinstalled : s'.installed = s.installed)
    (hget : ∀ n, n = fileName ∨ isBackup fileName n = true → s'.folder.get n = s.folder.get n) :
    Settled codec fileName faults s' := by
  have hfile := hget fileName (.inl rfl)
  refine ⟨by rw [hfile, hinstalled, h.last], by rw [hinstalled]; exact h.readable, fun hnot => ?_⟩
  rw [hfile] at hnot
  have hperm : (s'.folder.select (isBackup fileName)).Perm (s.folder.select (isBackup fileName)) :=
    Folder.select_perm fun n hn => hget n (.inr hn)
  rw [h.clear hnot] at hperm
  exact List.perm_nil.1 hperm

/-- A file that is neither the state file nor one of its backups. -/
structure Beside (fileName name : String) : Prop where
  ne : name ≠ fileName
  notBackup : isBackup fileName name = false

variable {name temporary : String} {fails : Bool}

theorem Beside.get_set (h : Beside fileName name) (folder : Folder Bytes) :
    ∀ n, n = fileName ∨ isBackup fileName n = true → (folder.set name bytes).get n = folder.get n := by
  intro n hn
  have hne : n ≠ name := by
    rintro rfl
    rcases hn with rfl | hbackup
    · exact h.ne rfl
    · cases h.notBackup.symm.trans hbackup
  rw [Folder.get_set, if_neg hne]

theorem Beside.get_remove (h : Beside fileName name) (folder : Folder Bytes) :
    ∀ n, n = fileName ∨ isBackup fileName n = true → (folder.remove name).get n = folder.get n := by
  intro n hn
  have hne : n ≠ name := by
    rintro rfl
    rcases hn with rfl | hbackup
    · exact h.ne rfl
    · cases h.notBackup.symm.trans hbackup
  rw [Folder.get_remove, if_neg hne]

/-- A file beside the others can be removed. -/
theorem Beside.triple_remove (h : Beside fileName name) : Triple (Kept codec fileName)
    (remove fails name) (fun _ => Kept codec fileName) (fun _ _ => True) (Kept codec fileName) := by
  refine StateFile.triple_remove (fun s hs => hs) (fun s hs => hs) fun s hs => ?_
  have hremoved : Kept codec fileName { s with folder := s.folder.remove name } := hs.frame rfl (h.get_remove s.folder)
  exact ⟨hremoved, hremoved⟩

/-- A call that gives up removes its temporary file. -/
theorem Beside.triple_abandon {error : StateError} (h : Beside fileName name) :
    Triple (Kept codec fileName) (do remove fails name; (fail error : Call Unit)) (fun _ _ => False) (fun _ _ => True)
      (Kept codec fileName) :=
  triple_bind (h.triple_remove) fun _ => triple_fail fun _ hs => ⟨trivial, hs⟩

theorem beside_temporary : Beside fileName (temporaryName fileName suffix) := ⟨temporary_ne, not_isBackup_temporary⟩

theorem look_bind {ε α β : Type} (f : Shelf → α) (g : α → Traced Shelf ε β) :
    (look (fun s => .ok (f s)) >>= g) s = g (f s) s := rfl

theorem recover_placed (hfile : s.folder.get fileName = some bytes) :
    recoverAtomicStateBackup codec fileName faults s = ([], .ok ()) := by
  unfold recoverAtomicStateBackup
  rw [look_bind, hfile]
  rfl

theorem recover_nothing (hfile : s.folder.get fileName = none) (hclear : s.folder.select (isBackup fileName) = []) :
    recoverAtomicStateBackup codec fileName faults s = ([], .ok ()) := by
  unfold recoverAtomicStateBackup
  rw [look_bind, hfile, hclear]
  rfl

/-- The shelf with the backup put back. -/
def restored (fileName leaf : String) (bytes : Bytes) (s : Shelf) : Shelf :=
  { s with folder := (s.folder.remove leaf).set fileName bytes }

theorem recover_aside (faults : Faults) (hfile : s.folder.get fileName = none) (honly : s.folder.select (isBackup fileName) = [leaf])
    (hvalid : validStateBackupSuffix (leaf.toList.drop (backupStem fileName).length) = true)
    (hleaf : s.folder.get leaf = some bytes) (hreadable : codec.readable bytes = true) :
    recoverAtomicStateBackup codec fileName faults s =
      if faults.recover then ([], .error (.repairRequired .recoveryRestoreFailed (some leaf)))
      else ([restored fileName leaf bytes s], .ok ()) := by
  unfold recoverAtomicStateBackup
  rw [look_bind, hfile, honly]
  have hcandidate : (!validStateBackupSuffix (leaf.toList.drop (backupStem fileName).length) ||
      !readValidStateBackup codec s.folder leaf) = false := by
    simp [hvalid, readValidStateBackup, hleaf, hreadable]
  simp only [Option.isSome_none, Bool.false_eq_true, if_false, hcandidate]
  cases faults.recover with
  | true => rfl
  | false =>
    have hrename : rename false leaf fileName s = ([restored fileName leaf bytes s], .ok ()) := by
      unfold rename Traced.step
      simp only [Folder.rename_isSome hleaf]
      rfl
    have hattempt : (attempt (rename false leaf fileName) : Call (Except Unit Unit)) s =
        ([restored fileName leaf bytes s], .ok (.ok ())) := by
      rw [attempt, hrename]
    have hread : readValidStateBackup codec (restored fileName leaf bytes s).folder fileName = true := by
      simp [readValidStateBackup, restored, hreadable]
    rw [bind_ok (a := .ok ()) (by rw [hattempt])]
    simp only [last, hattempt, List.getLastD_cons, List.getLastD_nil, look_bind, hread, if_true]
    rfl

theorem settled_restored (faults : Faults) (honly : s.folder.select (isBackup fileName) = [leaf]) (hlast : s.installed.head? = some bytes)
    (hreadable : codec.readable bytes = true) : Settled codec fileName faults (restored fileName leaf bytes s) := by
  obtain ⟨hbackup, -, hothers⟩ := Folder.select_eq_singleton.1 honly
  refine ⟨?_, ?_, ?_⟩
  · simp [restored, hlast]
  · intro b hb
    cases hb.symm.trans hlast
    exact hreadable
  · intro _
    refine Folder.select_eq_nil.2 fun n hn => ?_
    have hne : n ≠ fileName := fun h => by
      rw [h, not_isBackup_self] at hn
      cases hn
    simp only [restored, Folder.get_set, if_neg hne, Folder.get_remove]
    split
    · rfl
    · rename_i hleaf
      exact hothers n hn hleaf

theorem triple_recover : Triple
    (fun s => Kept codec fileName s ∧ ((s.folder.get fileName).isSome = true → faults.replace = true →
      s.folder.select (isBackup fileName) = []))
    (recoverAtomicStateBackup codec fileName faults) (fun _ => Settled codec fileName faults) (fun _ _ => True)
    (Kept codec fileName) := by
  refine triple_of_run fun s hs => ⟨hs.1, ?_⟩
  obtain ⟨hkept, hcalm⟩ := hs
  cases hkept with
  | placed bytes hfile hlast hreadable =>
    refine ⟨_, _, recover_placed hfile, nofun, ⟨hfile.trans hlast.symm, ?_, ?_⟩⟩
    · intro b hb
      cases hb.symm.trans hlast
      exact hreadable
    · rintro (hnone | hreplace)
      · cases hnone.symm.trans hfile
      · exact hcalm (by rw [hfile]; rfl) hreplace
  | nothing hfile hlast hclear =>
    refine ⟨_, _, recover_nothing hfile hclear, nofun, ⟨?_, ?_, fun _ => hclear⟩⟩
    · show s.folder.get fileName = s.installed.head?
      rw [hfile, hlast]
      rfl
    · show ∀ b ∈ s.installed.head?, _
      rw [hlast]
      exact nofun
  | aside leaf bytes hfile honly hvalid hleaf hlast hreadable =>
    have hrun := recover_aside faults hfile honly hvalid hleaf hreadable
    cases hfails : faults.recover with
    | true =>
      rw [hfails] at hrun
      exact ⟨_, _, hrun, nofun, trivial⟩
    | false =>
      rw [hfails] at hrun
      have hsettled : Settled codec fileName faults (restored fileName leaf bytes s) :=
        settled_restored faults honly hlast hreadable
      refine ⟨_, _, hrun, fun s' hs' => ?_, hsettled⟩
      rw [List.mem_singleton.1 hs']
      exact hsettled.kept

theorem triple_prepare (hbeside : Beside fileName temporary) : Triple (Settled codec fileName faults)
    (prepare faults temporary encoded)
    (fun _ s => Settled codec fileName faults s ∧ s.folder.get temporary = some encoded) (fun _ _ => True)
    (Kept codec fileName) := by
  have hset {s : Shelf} {bytes : Bytes} (h : Settled codec fileName faults s) :
      Settled codec fileName faults { s with folder := s.folder.set temporary bytes } :=
    h.frame rfl (hbeside.get_set s.folder)
  unfold prepare
  refine triple_bind (M := fun _ => Settled codec fileName faults) (triple_look fun s hs => ⟨hs, hs.kept⟩) fun folder => ?_
  split
  · exact triple_fail fun s hs => ⟨trivial, hs.kept⟩
  · refine triple_bind (M := fun _ => Settled codec fileName faults)
      (triple_put (fun s hs => hs.kept) fun s hs => ⟨hset hs, (hset hs).kept⟩) fun _ => ?_
    refine triple_bind (M := fun _ => Settled codec fileName faults)
      (triple_put (fun s hs => hs.kept) fun s hs => ⟨hset hs, (hset hs).kept⟩) fun _ => ?_
    split
    · exact hbeside.triple_abandon.weaken (fun s hs => hs.kept) (fun _ _ h => h.elim) fun _ _ h => h
    · refine triple_put (fun s hs => hs.kept) fun s hs => ⟨⟨hset hs, ?_⟩, (hset hs).kept⟩
      simp

variable (codec fileName) in
/-- The file is set aside as the backup, which is the only one. -/
structure SetAside (backup : String) (s : Shelf) : Prop where
  file : s.folder.get fileName = none
  only : s.folder.select (isBackup fileName) = [backup]
  valid : validStateBackupSuffix (backup.toList.drop (backupStem fileName).length) = true
  last : s.folder.get backup = s.installed.head?
  readable : ∀ bytes ∈ s.installed.head?, codec.readable bytes = true

theorem SetAside.get {backup : String} (h : SetAside codec fileName backup s) : ∃ bytes, s.folder.get backup = some bytes :=
  Option.isSome_iff_exists.1 (Folder.select_eq_singleton.1 h.only).2.1

theorem SetAside.kept {backup : String} (h : SetAside codec fileName backup s) : Kept codec fileName s := by
  obtain ⟨bytes, hbytes⟩ := h.get
  have hlast := h.last.symm.trans hbytes
  exact .aside backup bytes h.file h.only h.valid hbytes hlast (h.readable bytes hlast)

/-- Whatever else there is, a write that is put in place is kept. -/
theorem kept_installed (hreadable : codec.readable encoded = true) :
    Kept codec fileName ⟨(s.folder.remove temporary).set fileName encoded, encoded :: s.installed⟩ :=
  .placed encoded (by simp) rfl hreadable

theorem triple_exchange {backup : String} (hbeside : Beside fileName temporary)
    (hbackup : isBackup fileName backup = true) (hreadable : codec.readable encoded = true) : Triple
    (fun s => SetAside codec fileName backup s ∧ s.folder.get temporary = some encoded)
    (exchange fileName faults temporary backup) (fun _ s => s.installed.head? = some encoded) (fun _ _ => True)
    (Kept codec fileName) := by
  unfold exchange
  refine triple_try (M := fun _ s => Kept codec fileName s ∧ s.folder.get fileName = some encoded ∧
    s.installed.head? = some encoded) (N := fun _ => SetAside codec fileName backup)
    (triple_install (fun s hs => hs.1.kept) ?_ ?_) (fun _ => ?_) fun _ => ?_
  · rintro s bytes ⟨-, htemporary⟩ - hget
    cases hget.symm.trans htemporary
    exact ⟨⟨kept_installed hreadable, by simp, rfl⟩, kept_installed hreadable⟩
  · exact fun s hs _ => hs.1
  · refine triple_remove (fun s hs => hs.1) (fun s hs => hs.2.2) ?_
    rintro s ⟨-, hfile, hlast⟩
    have hne : fileName ≠ backup := fun h => by
      rw [← h, not_isBackup_self] at hbackup
      cases hbackup
    exact ⟨hlast, .placed encoded (by rw [Folder.get_remove, if_neg hne, hfile]) hlast hreadable⟩
  · refine triple_try (M := fun _ => Kept codec fileName) (N := fun _ => Kept codec fileName)
      (triple_rename (fun s hs => hs.kept) ?_ ?_) (fun _ => ?_) fun _ => ?_
    · intro s bytes hs _ hget
      have hlast := hs.last.symm.trans hget
      have hkept : Kept codec fileName (StateFile.restored fileName backup bytes s) :=
        (settled_restored faults hs.only hlast (hs.readable bytes hlast)).kept
      exact ⟨hkept, hkept⟩
    · exact fun s hs _ => hs.kept
    all_goals
      refine triple_bind (M := fun _ => Kept codec fileName) hbeside.triple_remove fun _ => ?_
      exact triple_fail fun _ hs => ⟨trivial, hs⟩

/-- With no backup there, the file can be set aside. -/
theorem Settled.setAside {stamp : Stamp} (h : Settled codec fileName faults s) (hreplace : faults.replace = true)
    (hget : s.folder.get fileName = some bytes) :
    SetAside codec fileName (backupName fileName (uniqueStateSuffix stamp))
      { s with folder := (s.folder.remove fileName).set (backupName fileName (uniqueStateSuffix stamp)) bytes } := by
  have hne : fileName ≠ backupName fileName (uniqueStateSuffix stamp) := fun he => by
    have hself := isBackup_backupName fileName (uniqueStateSuffix stamp)
    rw [← he, not_isBackup_self] at hself
    cases hself
  have hclear := Folder.select_eq_nil.1 (h.clear (.inr hreplace))
  refine ⟨by simp [hne], ?_, by rw [drop_backupName]; exact validSuffix_unique stamp, ?_, h.readable⟩
  · refine Folder.select_eq_singleton.2 ⟨isBackup_backupName .., by simp, fun n hn hother => ?_⟩
    rw [Folder.get_set, if_neg hother, Folder.get_remove]
    split
    · rfl
    · exact hclear n hn
  · rw [Folder.get_set, if_pos rfl, ← hget]
    exact h.last

theorem triple_program (fileName : String) (w : Write T)
    (hreadable : ∀ encoded ∈ codec.encode w.value, codec.readable encoded = true) : Triple
      (fun s => Kept codec fileName s ∧ ((s.folder.get fileName).isSome = true → w.faults.replace = true →
        s.folder.select (isBackup fileName) = []))
      (w.program codec fileName) (fun _ s => codec.encode w.value = s.installed.head?) (fun _ _ => True)
      (Kept codec fileName) := by
  unfold Write.program writeAtomicJsonWithRenamer
  refine triple_bind triple_recover fun _ => ?_
  split
  · exact triple_fail fun s hs => ⟨trivial, hs.kept⟩
  rename_i encoded hencode
  have hreadable := hreadable encoded hencode
  have hbeside : Beside fileName (temporaryName fileName (uniqueStateSuffix w.stamp)) := beside_temporary
  refine triple_bind (triple_prepare hbeside) fun _ => ?_
  refine triple_try (M := fun _ s => s.installed.head? = some encoded ∧ Kept codec fileName s)
    (N := fun _ s => Settled codec fileName w.faults s ∧ w.faults.replace = true ∧
      s.folder.get (temporaryName fileName (uniqueStateSuffix w.stamp)) = some encoded)
    (triple_install (fun s hs => hs.1.kept) ?_ ?_) (fun _ => ?_) fun _ => ?_
  · rintro s bytes ⟨-, htemporary⟩ - hget
    cases hget.symm.trans htemporary
    exact ⟨⟨rfl, kept_installed hreadable⟩, kept_installed hreadable⟩
  · rintro s ⟨hs, htemporary⟩ (hreplace | hnone)
    · exact ⟨hs, hreplace, htemporary⟩
    · cases hnone.symm.trans htemporary
  · exact triple_pure fun s hs => ⟨hencode.trans hs.1.symm, hs.2⟩
  · refine triple_bind (M := fun folder s => s.folder = folder ∧ Settled codec fileName w.faults s ∧ w.faults.replace = true ∧
      s.folder.get (temporaryName fileName (uniqueStateSuffix w.stamp)) = some encoded)
      (triple_look fun s hs => ⟨⟨rfl, hs⟩, hs.1.kept⟩) fun folder => ?_
    split
    · exact hbeside.triple_abandon.weaken (fun s hs => hs.2.1.kept) (fun _ _ h => h.elim) fun _ _ h => h
    · refine triple_try (M := fun _ s => SetAside codec fileName (backupName fileName (uniqueStateSuffix w.stamp)) s ∧
          s.folder.get (temporaryName fileName (uniqueStateSuffix w.stamp)) = some encoded) (N := fun _ => Kept codec fileName)
        (triple_rename (fun s hs => hs.2.1.kept) ?_ ?_) (fun _ => ?_) fun _ => ?_
      · rintro s bytes ⟨-, hs, hreplace, htemporary⟩ - hget
        refine ⟨⟨hs.setAside hreplace hget, ?_⟩, (hs.setAside hreplace hget).kept⟩
        have hne : temporaryName fileName (uniqueStateSuffix w.stamp) ≠ backupName fileName (uniqueStateSuffix w.stamp) := by
          intro h
          have hnot := hbeside.notBackup
          rw [h, isBackup_backupName] at hnot
          cases hnot
        rw [Folder.get_set, if_neg hne, Folder.get_remove, if_neg hbeside.ne, htemporary]
      · exact fun s hs _ => hs.2.1.kept
      · exact (triple_exchange hbeside (isBackup_backupName ..) hreadable).weaken (fun s hs => hs)
          (fun _ s hs => hencode.trans hs.symm) fun _ _ h => h
      · exact hbeside.triple_abandon.weaken (fun s hs => hs) (fun _ _ h => h.elim) fun _ _ h => h

/-! ### Runs -/

variable (codec fileName) in
/-- A write that finds a backup beside the file is not refused its first rename, and what it writes can be read back. -/
structure Calm (s : Shelf) (w : Write T) : Prop where
  spared : (s.folder.get fileName).isSome = true → w.faults.replace = true → s.folder.select (isBackup fileName) = []
  readable : ∀ encoded ∈ codec.encode w.value, codec.readable encoded = true

theorem kept_serve {w : Write T} (h : Kept codec fileName s) (hcalm : Calm codec fileName s w) :
    Kept codec fileName (serve codec fileName s w) := by
  have hleaves := (triple_program fileName w hcalm.readable).leaves s
  refine hleaves _ ⟨h, hcalm.spared⟩ ?_
  have hlast : (w.program codec fileName).last s ∈ s :: (w.program codec fileName s).1 := List.getLastD_mem_cons
  unfold serve
  cases w.cut with
  | none => exact hlast
  | some n =>
    show (s :: (w.program codec fileName s).1).getD n _ ∈ s :: (w.program codec fileName s).1
    rw [List.getD_eq_getElem?_getD]
    cases hget : (s :: (w.program codec fileName s).1)[n]? with
    | none => exact hlast
    | some s' => exact List.mem_of_getElem? hget

theorem kept_after {writes : List (Write T)} (halong : History.Along (serve codec fileName) (Calm codec fileName) .empty writes) :
    Kept codec fileName (after codec fileName writes) := by
  have hrun : ∀ s, Kept codec fileName s → History.Along (serve codec fileName) (Calm codec fileName) s writes →
      Kept codec fileName (History.after (serve codec fileName) s writes) := by
    clear halong
    induction writes with
    | nil => exact fun s h _ => h
    | cons w writes ih => exact fun s h halong => ih _ (kept_serve h halong.1) halong.2
  exact hrun .empty (.nothing rfl rfl rfl) halong

theorem head_of_succeeds {w : Write T} (h : Kept codec fileName s) (hcalm : Calm codec fileName s w)
    (hok : succeeds codec fileName s w = true) : codec.encode w.value = (serve codec fileName s w).installed.head? := by
  obtain ⟨hcut, hok⟩ := Bool.and_eq_true_iff.1 hok
  have hserve : serve codec fileName s w = (w.program codec fileName).last s := by
    rw [serve, Option.isNone_iff_eq_none.1 hcut]
  rw [hserve]
  cases hresult : (w.program codec fileName s).2 with
  | error e =>
    rw [hresult] at hok
    cases hok
  | ok u => exact (triple_program fileName w hcalm.readable).gives s u _ ⟨h, hcalm.spared⟩ ⟨hresult, rfl⟩

variable (codec fileName) in
/-- The next recovery leaves the value in the file, or it fails and names the one backup that holds the value. -/
def Recovers (s : Shelf) (faults : Faults) (value : Option Bytes) : Prop :=
  ((recoverAtomicStateBackup codec fileName faults s).2 = .ok () ∧
      ((recoverAtomicStateBackup codec fileName faults).last s).folder.get fileName = value) ∨
    ∃ leaf, (recoverAtomicStateBackup codec fileName faults s).2 =
        .error (.repairRequired .recoveryRestoreFailed (some leaf)) ∧
      s.folder.select (isBackup fileName) = [leaf] ∧ s.folder.get leaf = value

theorem Kept.recovers (h : Kept codec fileName s) (faults : Faults) : Recovers codec fileName s faults s.installed.head? := by
  unfold Recovers last
  cases h with
  | placed bytes hfile hlast _ =>
    rw [recover_placed hfile]
    exact .inl ⟨rfl, hfile.trans hlast.symm⟩
  | nothing hfile hlast hclear =>
    rw [recover_nothing hfile hclear, hlast]
    exact .inl ⟨rfl, hfile⟩
  | aside leaf bytes hfile honly hvalid hleaf hlast hreadable =>
    rw [recover_aside faults hfile honly hvalid hleaf hreadable]
    cases faults.recover with
    | true => exact .inr ⟨leaf, rfl, honly, hleaf.trans hlast.symm⟩
    | false =>
      refine .inl ⟨rfl, ?_⟩
      show (restored fileName leaf bytes s).folder.get fileName = _
      rw [hlast]
      simp [restored]

/-- State files survive failures. In every run whose writes are all calm, whatever fails and wherever the calls are cut
off, the next recovery leaves the value that was put in place last, or names the one backup that holds it; and if a write
came back with success and none was put in place since, this is the value of that write. -/
theorem state_survives (codec : Codec T) (fileName : String) :
    (∀ writes, History.Along (serve codec fileName) (Calm codec fileName) .empty writes → ∀ faults,
      Recovers codec fileName (after codec fileName writes) faults (after codec fileName writes).installed.head?) ∧
    ∀ (before later : List (Write T)) (w : Write T),
      History.Along (serve codec fileName) (Calm codec fileName) .empty (before ++ [w] ++ later) →
      succeeds codec fileName (after codec fileName before) w = true →
      (after codec fileName (before ++ [w] ++ later)).installed = (after codec fileName (before ++ [w])).installed →
      ∀ faults, Recovers codec fileName (after codec fileName (before ++ [w] ++ later)) faults (codec.encode w.value) := by
  constructor
  · intro writes halong faults
    exact (kept_after halong).recovers faults
  · intro before later w halong hok hsame faults
    have hwrite : after codec fileName (before ++ [w]) = serve codec fileName (after codec fileName before) w :=
      History.after_append ..
    obtain ⟨hfirst, -⟩ := History.along_append.1 halong
    obtain ⟨hbefore, hcalm, -⟩ := History.along_append.1 hfirst
    have hrecovers := (kept_after halong).recovers faults
    rwa [hsame, hwrite, ← head_of_succeeds (kept_after hbefore) hcalm hok] at hrecovers

/-! ### A backup that is left behind -/

/-- A byte as a document of its own. -/
def byteCodec : Codec UInt8 := ⟨fun b => some [b], fun _ => true⟩

def noFaults : Faults := ⟨false, false, 0, false, false, false, false, false, false, false⟩

def byteWrite (value : UInt8) (counter : Nat) (faults : Faults) : Write UInt8 := ⟨value, ⟨1, 2, counter⟩, faults, none⟩

/-- The second write has to set the file aside and cannot remove the backup, and the third stops with the file set aside. -/
def leftBehind : List (Write UInt8) :=
  [byteWrite 1 0 noFaults, byteWrite 2 1 { noFaults with replace := true, removeBackup := true },
    byteWrite 3 2 { noFaults with replace := true, install := true, restore := true }]

/-- The first write succeeds; the second sets the file aside, and can neither install its own nor put the old one back. -/
def halted : List (Write UInt8) :=
  [byteWrite 1 0 noFaults, byteWrite 2 1 { noFaults with replace := true, install := true, restore := true }]

theorem state_survives_halted : (after byteCodec "s" halted).folder.get "s" = none ∧
    (after byteCodec "s" halted).folder.get ".s.backup-1-2-1" = some [1] ∧
    ((recoverAtomicStateBackup byteCodec "s" noFaults).last (after byteCodec "s" halted)).folder.get "s" = some [1] ∧
    (recoverAtomicStateBackup byteCodec "s" { noFaults with recover := true } (after byteCodec "s" halted)).2 =
      .error (.repairRequired .recoveryRestoreFailed (some ".s.backup-1-2-1")) ∧
    ∀ faults, Recovers byteCodec "s" (after byteCodec "s" halted) faults (byteCodec.encode 1) ∧
      Recovers byteCodec "s" (after byteCodec "s" halted) faults (after byteCodec "s" halted).installed.head? := by
  have hreadable : ∀ w : Write UInt8, ∀ encoded ∈ byteCodec.encode w.value, byteCodec.readable encoded = true := by
    intro w encoded h
    cases h
    rfl
  have hcalm : History.Along (serve byteCodec "s") (Calm byteCodec "s") .empty halted :=
    ⟨⟨fun hfile => absurd hfile (by decide), hreadable _⟩, ⟨fun _ _ => by decide +kernel, hreadable _⟩, trivial⟩
  obtain ⟨hlast, hwritten⟩ := state_survives byteCodec "s"
  refine ⟨by decide +kernel, by decide +kernel, by decide +kernel, by decide +kernel, fun faults => ⟨?_, hlast _ hcalm faults⟩⟩
  exact hwritten [] [_] (byteWrite 1 0 noFaults) hcalm (by decide +kernel) (by decide +kernel) faults

/-- The second write came back with success and nothing was put in place since, but there are two backups now. -/
theorem left_behind_ambiguous :
    succeeds byteCodec "s" (after byteCodec "s" (leftBehind.take 1)) (byteWrite 2 1 { noFaults with replace := true, removeBackup := true }) =
        true ∧
      (after byteCodec "s" leftBehind).installed = (after byteCodec "s" (leftBehind.take 2)).installed ∧
      (recoverAtomicStateBackup byteCodec "s" noFaults (after byteCodec "s" leftBehind)).2 =
        .error (.repairRequired .ambiguousRecoveryCandidates none) := by
  decide +kernel

end CYC.StateFile
