import Px4Firmware.Param.Export

/-!
# Px4Firmware.Param.Save

**Saving the parameters to their file**: `mavlink_pm_save_eeprom`, `pm_save_eeprom` of the commander
and the command `param save`. All three delete the file, create a new one, export to it, and delete
that one if the export fails. So the old file does not outlive an error, but for one case: it could
not be deleted, and then no new one is created (`save_error`).

The file system is that of one path. Files are numbered in the order in which they are created, so
that a new file can be told from an old one with the same bytes.
-/

namespace Px4Firmware.Param

open Px4Firmware.Lib
open Px4Firmware.Bson

/-! ### The file system -/

/-- A file. -/
structure File where
  inode : Nat
  bytes : List UInt8
deriving DecidableEq

/-- What is at the path of the parameter file, and the number of files created so far. -/
structure Disk where
  file : Option File
  created : Nat
  older : ∀ f ∈ file, f.inode < created

/-- The outcomes of the calls that a save makes: whether a file is deleted, or created, if the path
allows it, and what is left of a write that is not complete. -/
structure Outcomes where
  unlinkOld : Bool
  create : Bool
  torn : List UInt8
  unlinkNew : Bool

namespace Disk

/-- `unlink`. -/
def unlink (works : Bool) (d : Disk) : Disk :=
  if works then { file := none, created := d.created, older := nofun } else d

/-- `open` with `O_WRONLY | O_CREAT | O_EXCL`, which fails if there is a file. -/
def openExcl (works : Bool) (d : Disk) : Option Disk :=
  if works && d.file.isNone then
    some {
      file := some { inode := d.created, bytes := [] }
      created := d.created + 1
      older := by
        rintro f ⟨⟩
        exact Nat.lt_succ_self _ }
  else none

/-- Writing to the file that is open. -/
def append (bytes : List UInt8) (d : Disk) : Disk where
  file := d.file.map fun f => { f with bytes := f.bytes ++ bytes }
  created := d.created
  older f hf := by
    obtain ⟨g, hg, rfl⟩ := Option.map_eq_some_iff.mp hf
    exact d.older g hg

end Disk

/-! ### The saves -/

/-- How a save reports its errors, and which results of `param_export` it takes for one. -/
structure SaveCodes where
  openFailed : Int
  exportFailed : Int
  failed : Int → Bool
  openFailed_ne : openFailed ≠ 0
  exportFailed_ne : exportFailed ≠ 0
  passes : failed 0 = false
  catches : failed (-1) = true

/-- Delete the file, create a new one, export the parameters to it and delete it if that fails. -/
def saveFile (codes : SaveCodes) (onlyUnsaved : Bool) (env : Env) (io : Outcomes) (s : Store)
    (d : Disk) : Int × Store × Disk :=
  match (d.unlink io.unlinkOld).openExcl io.create with
  | none => (codes.openFailed, s, d.unlink io.unlinkOld)
  | some d =>
      let (result, s, bytes) := paramExport env onlyUnsaved s
      let d := d.append (if result = 0 then bytes else bytes ++ io.torn)
      if codes.failed result then (codes.exportFailed, s, d.unlink io.unlinkNew) else (0, s, d)

theorem minusOne_ne : (-1 : Int) ≠ 0 := by decide

theorem minusTwo_ne : (-2 : Int) ≠ 0 := by decide

/-- `mavlink_pm_save_eeprom`. -/
def mavlinkPmSaveEeprom : Env → Outcomes → Store → Disk → Int × Store × Disk :=
  saveFile
    { openFailed := -1
      exportFailed := -2
      failed := fun result => result ≠ 0
      openFailed_ne := minusOne_ne
      exportFailed_ne := minusTwo_ne
      passes := rfl
      catches := rfl } false

/-- `pm_save_eeprom` of the commander. -/
def pmSaveEeprom (onlyUnsaved : Bool) : Env → Outcomes → Store → Disk → Int × Store × Disk :=
  saveFile
    { openFailed := -1
      exportFailed := -2
      failed := fun result => result ≠ 0
      openFailed_ne := minusOne_ne
      exportFailed_ne := minusTwo_ne
      passes := rfl
      catches := rfl } onlyUnsaved

/-- `do_save`, with the status with which the command exits. -/
def doSave : Env → Outcomes → Store → Disk → Int × Store × Disk :=
  saveFile
    { openFailed := 1
      exportFailed := 1
      failed := fun result => result < 0
      openFailed_ne := by decide
      exportFailed_ne := by decide
      passes := rfl
      catches := rfl } false

/-- The three ways to save the parameters. -/
inductive SavePath
  | mavlink
  | commander (onlyUnsaved : Bool)
  | command

/-- Save the parameters. -/
def SavePath.save : SavePath → Env → Outcomes → Store → Disk → Int × Store × Disk
  | .mavlink => mavlinkPmSaveEeprom
  | .commander onlyUnsaved => pmSaveEeprom onlyUnsaved
  | .command => doSave

/-- Load the parameters from the file, if there is one. -/
def loadFile (env : Env) (d : Disk) (s : Store) : Option (Int × Store) :=
  d.file.bind fun f => paramLoad env f.bytes s

/-- The file is still there, and loads as it did. -/
def StillLoads (env : Env) (old : File) (d : Disk) : Prop :=
  d.file = some old ∧ ∀ s, loadFile env d s = paramLoad env old.bytes s

section

variable {env : Env} {io : Outcomes} {s : Store} {d : Disk} {old : File}

theorem stillLoads_iff : StillLoads env old d ↔ d.file = some old := by
  refine ⟨And.left, fun hfile => ⟨hfile, fun s => ?_⟩⟩
  unfold loadFile
  rw [hfile]
  rfl

/-- An export returns zero or minus one. -/
theorem paramExport_result (env : Env) (onlyUnsaved : Bool) (s : Store) :
    (paramExport env onlyUnsaved s).1 = 0 ∨ (paramExport env onlyUnsaved s).1 = -1 := by
  obtain ⟨hresult, -, -⟩ := paramExport_eq env onlyUnsaved s
  rw [hresult]
  split_ifs
  · exact .inl rfl
  · exact .inr rfl

/-- The file that a save creates. -/
def newFile (d : Disk) (bytes : List UInt8) : File where
  inode := d.created
  bytes := bytes

/-- The ends of a save, with the result and the disk. -/
inductive SaveEnds (env : Env) (onlyUnsaved : Bool) (io : Outcomes) (s : Store) (d : Disk) :
    Int → Disk → Prop
  | kept {result : Int} : result ≠ 0 → io.unlinkOld = false → d.file ≠ none →
      SaveEnds env onlyUnsaved io s d result d
  | notCreated {result : Int} {d' : Disk} : result ≠ 0 → (io.unlinkOld = true ∨ d.file = none) →
      d'.file = none → SaveEnds env onlyUnsaved io s d result d'
  | notExported {result : Int} {d' : Disk} : result ≠ 0 → (io.unlinkOld = true ∨ d.file = none) →
      (paramExport env onlyUnsaved s).1 = -1 →
      d'.file = (if io.unlinkNew then none
        else some (newFile d ((paramExport env onlyUnsaved s).2.2 ++ io.torn))) →
      SaveEnds env onlyUnsaved io s d result d'
  | saved {d' : Disk} : (paramExport env onlyUnsaved s).1 = 0 →
      d'.file = some (newFile d (paramExport env onlyUnsaved s).2.2) →
      SaveEnds env onlyUnsaved io s d 0 d'

theorem unlink_file (works : Bool) (d : Disk) :
    (d.unlink works).file = if works then none else d.file := by
  cases works <;> rfl

theorem unlink_created (works : Bool) (d : Disk) : (d.unlink works).created = d.created := by
  cases works <;> rfl

/-- A file is created only where there is none. -/
theorem openExcl_eq_some {works : Bool} {d' : Disk} (h : d.openExcl works = some d') :
    d.file = none ∧ d'.file = some (newFile d []) := by
  unfold Disk.openExcl at h
  split_ifs at h with hopen
  obtain ⟨-, hnone⟩ := Bool.and_eq_true_iff.mp hopen
  cases h
  exact ⟨Option.isNone_iff_eq_none.mp hnone, rfl⟩

/-- **A save ends in one of four ways.** -/
theorem saveFile_ends (codes : SaveCodes) (onlyUnsaved : Bool) (env : Env) (io : Outcomes)
    (s : Store) (d : Disk) :
    SaveEnds env onlyUnsaved io s d (saveFile codes onlyUnsaved env io s d).1
      (saveFile codes onlyUnsaved env io s d).2.2 := by
  have hunlinked := unlink_file io.unlinkOld d
  unfold saveFile
  cases hopen : (d.unlink io.unlinkOld).openExcl io.create with
  | none =>
      simp only
      cases hunlink : io.unlinkOld with
      | true =>
          rw [hunlink] at hunlinked
          exact .notCreated codes.openFailed_ne (.inl hunlink) hunlinked
      | false =>
          by_cases hfile : d.file = none
          · exact .notCreated codes.openFailed_ne (.inr hfile) hfile
          · exact .kept codes.openFailed_ne hunlink hfile
  | some d' =>
      obtain ⟨hnone, hnew⟩ := openExcl_eq_some hopen
      have hgone : io.unlinkOld = true ∨ d.file = none := by
        cases hunlink : io.unlinkOld with
        | true => exact .inl rfl
        | false =>
            rw [hunlink] at hnone
            exact .inr hnone
      have hfile : ∀ bytes, (d'.append bytes).file = some (newFile d bytes) := by
        intro bytes
        show d'.file.map _ = _
        rw [hnew]
        simp [newFile, unlink_created]
      rcases paramExport_result env onlyUnsaved s with hresult | hresult
      · simp only [hresult, codes.passes]
        exact .saved hresult (hfile _)
      · simp only [hresult, codes.catches]
        refine .notExported codes.exportFailed_ne hgone hresult ?_
        show ((d'.append ((paramExport env onlyUnsaved s).2.2 ++ io.torn)).unlink
          io.unlinkNew).file = _
        rw [unlink_file, hfile]

theorem save_ends (path : SavePath) (env : Env) (io : Outcomes) (s : Store) (d : Disk) :
    ∃ onlyUnsaved, SaveEnds env onlyUnsaved io s d (path.save env io s d).1
      (path.save env io s d).2.2 := by
  cases path with
  | mavlink => exact ⟨false, saveFile_ends _ false env io s d⟩
  | commander onlyUnsaved => exact ⟨onlyUnsaved, saveFile_ends _ onlyUnsaved env io s d⟩
  | command => exact ⟨false, saveFile_ends _ false env io s d⟩

/-- A new file is not the old one. -/
theorem newFile_ne (hold : d.file = some old) (bytes : List UInt8) : newFile d bytes ≠ old := by
  rintro rfl
  have holder : (newFile d bytes).inode < d.created := d.older _ hold
  exact Nat.lt_irrefl _ holder

/-- **What an error of a save leaves.** If a save by any of the three paths reports an error, the
old file is still there and loads as it did exactly if it could not be deleted. Otherwise there is
no file, unless the export failed and the new file could not be deleted either: then what is there
is the new file with what the export has written. -/
theorem save_error (path : SavePath) (hold : d.file = some old)
    (herror : (path.save env io s d).1 ≠ 0) :
    (StillLoads env old (path.save env io s d).2.2 ↔ io.unlinkOld = false) ∧
      (io.unlinkOld = true → (path.save env io s d).2.2.file = none ∨
        io.unlinkNew = false ∧ ∃ onlyUnsaved, (paramExport env onlyUnsaved s).1 = -1 ∧
          (path.save env io s d).2.2.file =
            some (newFile d ((paramExport env onlyUnsaved s).2.2 ++ io.torn))) := by
  obtain ⟨onlyUnsaved, hends⟩ := save_ends path env io s d
  have hsome : d.file ≠ none := by
    rw [hold]
    exact Option.some_ne_none old
  rw [stillLoads_iff]
  generalize (path.save env io s d).1 = result at hends herror
  generalize (path.save env io s d).2.2 = d' at hends
  cases hends with
  | kept _ hunlink _ =>
      refine ⟨⟨fun _ => hunlink, fun _ => hold⟩, fun hgone => ?_⟩
      exact absurd (hunlink.symm.trans hgone) (by decide)
  | notCreated _ hgone hfile =>
      have hunlink : io.unlinkOld = true := hgone.resolve_right hsome
      refine ⟨⟨fun hkept => ?_, fun hfalse => ?_⟩, fun _ => .inl hfile⟩
      · exact nomatch hfile.symm.trans hkept
      · exact absurd (hfalse.symm.trans hunlink) (by decide)
  | notExported _ hgone hresult hfile =>
      have hunlink : io.unlinkOld = true := hgone.resolve_right hsome
      refine ⟨⟨fun hkept => ?_, fun hfalse => ?_⟩, fun _ => ?_⟩
      · rw [hkept] at hfile
        split_ifs at hfile
        exact absurd (Option.some.inj hfile).symm (newFile_ne hold _)
      · exact absurd (hfalse.symm.trans hunlink) (by decide)
      · cases hnew : io.unlinkNew with
        | true =>
            rw [hnew] at hfile
            exact .inl hfile
        | false =>
            rw [hnew] at hfile
            exact .inr ⟨rfl, onlyUnsaved, hresult, hfile⟩
  | saved => exact absurd rfl herror

/-- What a save that reports success leaves: a complete export. -/
theorem save_success (path : SavePath) (hsuccess : (path.save env io s d).1 = 0) :
    ∃ onlyUnsaved, (paramExport env onlyUnsaved s).1 = 0 ∧
      (path.save env io s d).2.2.file =
        some (newFile d (paramExport env onlyUnsaved s).2.2) := by
  obtain ⟨onlyUnsaved, hends⟩ := save_ends path env io s d
  generalize (path.save env io s d).1 = result at hends hsuccess
  generalize (path.save env io s d).2.2 = d' at hends
  cases hends with
  | kept herror => exact absurd hsuccess herror
  | notCreated herror => exact absurd hsuccess herror
  | notExported herror => exact absurd hsuccess herror
  | saved hresult hfile => exact ⟨onlyUnsaved, hresult, hfile⟩

end

/-- The sample on a full disk. -/
def fullDiskEnv : Env := { sampleEnv with write := fun _ _ => false }

/-- A disk with the file that was saved when the first parameter was five. -/
def savedDisk : Disk where
  file := some { inode := 0, bytes := [0, 0, 0, 0, 16, 65, 0, 5, 0, 0, 0, 0] }
  created := 1
  older := by
    rintro f ⟨⟩
    decide

/-- The old file cannot be deleted. -/
theorem save_error_kept :
    (SavePath.command.save fullDiskEnv ⟨false, true, [], true⟩ sampleStore savedDisk).1 = 1 ∧
      StillLoads fullDiskEnv { inode := 0, bytes := [0, 0, 0, 0, 16, 65, 0, 5, 0, 0, 0, 0] }
        (SavePath.command.save fullDiskEnv ⟨false, true, [], true⟩ sampleStore savedDisk).2.2 := by
  have hresult :
      (SavePath.command.save fullDiskEnv ⟨false, true, [], true⟩ sampleStore savedDisk).1 = 1 := rfl
  have herror :
      (SavePath.command.save fullDiskEnv ⟨false, true, [], true⟩ sampleStore savedDisk).1 ≠ 0 := by
    rw [hresult]
    decide
  obtain ⟨hkept, -⟩ := save_error .command (d := savedDisk) rfl herror
  exact ⟨hresult, hkept.mpr rfl⟩

/-- The old file is deleted before there is a new one. -/
theorem save_error_loses :
    ¬ ∀ (path : SavePath) (env : Env) (io : Outcomes) (s : Store) (d : Disk) (old : File),
      d.file = some old → (path.save env io s d).1 ≠ 0 →
        StillLoads env old (path.save env io s d).2.2 := by
  intro hclaim
  have hresult :
      (SavePath.mavlink.save fullDiskEnv ⟨true, true, [], true⟩ sampleStore savedDisk).1 = -2 := rfl
  have hkept := hclaim .mavlink fullDiskEnv ⟨true, true, [], true⟩ sampleStore savedDisk _ rfl (by
    rw [hresult]
    decide)
  have hgone :
      (SavePath.mavlink.save fullDiskEnv ⟨true, true, [], true⟩ sampleStore savedDisk).2.2.file =
        none := rfl
  exact nomatch hgone.symm.trans hkept.1

end Px4Firmware.Param
