import ClusterYourCodex.Lib.Crash
import ClusterYourCodex.Lib.Folder
import ClusterYourCodex.Lib.History
import ClusterYourCodex.Spec.Integration

/-! The small state files of the desktop (`apps/desktop`, `integration.rs`). A write prepares a temporary file and renames it
over the old one; where that is not possible the old file is set aside under a backup name first. A call that finds no file
looks for a backup and puts it back. Every rename and every removal may fail without effect, and a call may be cut off
after any step. -/

namespace CYC.StateFile

open Integration

abbrev Bytes := List UInt8

/-- `StatePersistenceFailed`, and `RepairRequired` with the leaf name of the backup that holds the state. -/
inductive StateError where
  | statePersistenceFailed
  | repairRequired (rollback : StateRollbackFailure) (recovery : Option String)
  deriving DecidableEq

/-- How values are written as JSON, and which documents read as a value. -/
structure Codec (T : Type) where
  encode : T → Option Bytes
  decodes : Bytes → Bool

/-! ### Names -/

/-- What makes a suffix unique: the process, the time and a counter. -/
structure Stamp where
  pid : Nat
  nanos : Nat
  counter : Nat
  deriving DecidableEq

def uniqueStateSuffix (stamp : Stamp) : String :=
  toString stamp.pid ++ "-" ++ toString stamp.nanos ++ "-" ++ toString stamp.counter

def validField (field : List Char) : Bool := !field.isEmpty && field.all Text.isAsciiDigit

def validStateBackupSuffix (suffix : List Char) : Bool :=
  match Text.splitOnChar (· = '-') suffix with
  | [pid, nanos, counter] => validField pid && validField nanos && validField counter
  | _ => false

/-- How the backups of a file begin. -/
def backupStem (fileName : String) : String := "." ++ fileName ++ ".backup-"

def temporaryName (fileName suffix : String) : String := "." ++ fileName ++ ".tmp-" ++ suffix

def backupName (fileName suffix : String) : String := backupStem fileName ++ suffix

def isBackup (fileName leaf : String) : Bool := (backupStem fileName).toList.isPrefixOf leaf.toList

/-! ### The directory -/

/-- The directory, and what writes have put in place so far, the latest first; no call reads the latter. -/
structure Shelf where
  folder : Folder Bytes
  installed : List Bytes

def Shelf.empty : Shelf := ⟨.empty, []⟩

/-- What goes wrong during a call. -/
structure Faults where
  /-- The rename that puts a backup back fails. -/
  recover : Bool
  /-- The temporary file cannot be created. -/
  create : Bool
  /-- As many bytes are written at first. -/
  written : Nat
  /-- The rest of the bytes cannot be written, or the file cannot be synced. -/
  write : Bool
  /-- The temporary file cannot be renamed over the file. -/
  replace : Bool
  /-- The file cannot be set aside. -/
  setAside : Bool
  /-- Once the file is set aside, the temporary file cannot be renamed either. -/
  install : Bool
  /-- The file that was set aside cannot be put back. -/
  restore : Bool
  /-- The temporary file cannot be removed. -/
  removeTemporary : Bool
  /-- The backup cannot be removed. -/
  removeBackup : Bool

abbrev Call (α : Type) := Traced Shelf StateError α

section

open Traced

def rename (fails : Bool) (source destination : String) : Traced Shelf Unit Unit :=
  step fun s => match fails, s.folder.rename source destination with
    | false, some folder => .ok { s with folder }
    | _, _ => .error ()

/-- The rename that puts a write in place. -/
def install (fails : Bool) (temporary fileName : String) : Traced Shelf Unit Unit :=
  step fun s => match fails, s.folder.get temporary, s.folder.rename temporary fileName with
    | false, some bytes, some folder => .ok ⟨folder, bytes :: s.installed⟩
    | _, _, _ => .error ()

def put (name : String) (bytes : Bytes) : Call Unit := step fun s => .ok { s with folder := s.folder.set name bytes }

/-- A removal whose failure is not looked at. -/
def remove (fails : Bool) (name : String) : Call Unit :=
  step fun s => .ok (if fails then s else { s with folder := s.folder.remove name })

variable {T : Type} (codec : Codec T) (fileName : String)

def maxAtomicStateFile : Nat := 64 * 1024

/-- The bytes can be put back as the state. -/
def Codec.readable (bytes : Bytes) : Bool := bytes.length ≤ maxAtomicStateFile && codec.decodes bytes

def readValidStateBackup (folder : Folder Bytes) (name : String) : Bool := (folder.get name).any codec.readable

def recoverAtomicStateBackup (faults : Faults) : Call Unit := do
  let folder ← look fun s => .ok s.folder
  if (folder.get fileName).isSome then return ()
  match folder.select (isBackup fileName) with
  | [] => return ()
  | [leaf] =>
    if !validStateBackupSuffix (leaf.toList.drop (backupStem fileName).length) || !readValidStateBackup codec folder leaf then
      fail (.repairRequired .unsafeRecoveryCandidate none)
    else
      match ← attempt (rename faults.recover leaf fileName) with
      | .error () => fail (.repairRequired .recoveryRestoreFailed (some leaf))
      | .ok () =>
        let folder ← look fun s => .ok s.folder
        if readValidStateBackup codec folder fileName then return ()
        else fail (.repairRequired .unsafeRecoveryCandidate none)
  | _ => fail (.repairRequired .ambiguousRecoveryCandidates none)

/-- The temporary file with the encoded value. -/
def prepare (faults : Faults) (temporary : String) (encoded : Bytes) : Call Unit := do
  let folder ← look fun s => .ok s.folder
  if faults.create || (folder.get temporary).isSome then fail .statePersistenceFailed
  else
    put temporary []
    put temporary (encoded.take faults.written)
    if faults.write then
      remove faults.removeTemporary temporary
      fail .statePersistenceFailed
    else put temporary encoded

/-- Once the file is set aside as a backup. -/
def exchange (faults : Faults) (temporary backup : String) : Call Unit := do
  match ← attempt (install faults.install temporary fileName) with
  | .ok () => remove faults.removeBackup backup
  | .error () =>
    let restored ← attempt (rename faults.restore backup fileName)
    remove faults.removeTemporary temporary
    match restored with
    | .error () => fail (.repairRequired .backupRestoreFailed (some backup))
    | .ok () => fail .statePersistenceFailed

def writeAtomicJsonWithRenamer (value : T) (suffix : String) (faults : Faults) : Call Unit := do
  recoverAtomicStateBackup codec fileName faults
  match codec.encode value with
  | none => fail .statePersistenceFailed
  | some encoded =>
    let temporary := temporaryName fileName suffix
    let backup := backupName fileName suffix
    prepare faults temporary encoded
    match ← attempt (install faults.replace temporary fileName) with
    | .ok () => return ()
    | .error () =>
      let folder ← look fun s => .ok s.folder
      if (folder.get fileName).isNone then
        remove faults.removeTemporary temporary
        fail .statePersistenceFailed
      else
        match ← attempt (rename faults.setAside fileName backup) with
        | .error () =>
          remove faults.removeTemporary temporary
          fail .statePersistenceFailed
        | .ok () => exchange fileName faults temporary backup

end

/-! ### Runs -/

/-- One call; `cut` says after how many steps the process died. -/
structure Write (T : Type) where
  value : T
  stamp : Stamp
  faults : Faults
  cut : Option Nat

section

variable {T : Type} (codec : Codec T) (fileName : String)

def Write.program (w : Write T) : Call Unit :=
  writeAtomicJsonWithRenamer codec fileName w.value (uniqueStateSuffix w.stamp) w.faults

/-- What a call leaves behind. -/
def serve (s : Shelf) (w : Write T) : Shelf :=
  match w.cut with
  | none => (w.program codec fileName).last s
  | some n => (s :: (w.program codec fileName s).1).getD n ((w.program codec fileName).last s)

/-- The call came back with success. -/
def succeeds (s : Shelf) (w : Write T) : Bool := w.cut.isNone && (w.program codec fileName s).2.isOk

def after (writes : List (Write T)) : Shelf := History.after (serve codec fileName) .empty writes

end

end CYC.StateFile
