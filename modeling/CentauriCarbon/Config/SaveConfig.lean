import CentauriCarbon.Config.AutosaveText
import CentauriCarbon.Foundation.FileSystem

/-! # Saving the configuration

`SAVE_CONFIG` writes a temporary file, renames the autosave file to a backup and then the
temporary file to the autosave file. Between the two there is no autosave file, and the reader
takes a missing file for an empty one.
-/

namespace CentauriCarbon.Config

open Function List

abbrev ConfigFiles := Files Text Char

def cfgExtension : Text := ['.', 'c', 'f', 'g']

def besideName (suffix cfgname : Text) : Text :=
  if 4 ≤ cfgname.length ∧ cfgname.drop (cfgname.length - 4) = cfgExtension then
    cfgname.take (cfgname.length - 4) ++ suffix ++ cfgExtension
  else cfgname ++ suffix

def backupName : Text → Text := besideName ['_', 'b', 'a', 'c', 'k', 'u', 'p']

def tempName : Text → Text := besideName ['_', 't', 'e', 'm', 'p']

variable (files : ConfigFiles) (cfgname : Text) (autosave : ConfigWrapper)

def createMissing : List (FileOp Text Char) :=
  if (files cfgname).isSome then [] else [.create cfgname, .chmod cfgname, .close cfgname]

def writeTemp (cfgname data : Text) : List (FileOp Text Char) :=
  [.create (tempName cfgname), .write (tempName cfgname) data, .close (tempName cfgname),
    .chmod (tempName cfgname)]

def newData : Text := saveConfigData autosave ((files cfgname).getD [])

def prepareOps : List (FileOp Text Char) :=
  createMissing files cfgname ++ writeTemp cfgname (newData files cfgname autosave)

def cmdSaveConfig : List (FileOp Text Char) :=
  prepareOps files cfgname autosave ++
    [.rename cfgname (backupName cfgname), .rename (tempName cfgname) cfgname]

/-- The part of `read_main_config` that reads the autosave file; it creates a missing one. -/
def readAutosave (autosaveFilename : Text) : Text × ConfigFiles :=
  match files autosaveFilename with
  | some raw => (replaceCrLf raw, files)
  | none => ([], update files autosaveFilename (some []))

structure MainConfig where
  autosaveData : Text
  regular : Text
  autosave : Text

/-- `read_main_config`; it throws if there is no configuration file. -/
def readMainConfig (filename autosaveFilename : Text) : Option (MainConfig × ConfigFiles) :=
  (files filename).map fun raw =>
    let (autosaveData, files) := readAutosave files autosaveFilename
    let (regular, autosave) := findAutosaveData (replaceCrLf raw ++ autosaveData)
    ({ autosaveData, regular, autosave }, files)

theorem length_besideName (suffix cfgname : Text) :
    (besideName suffix cfgname).length = cfgname.length + suffix.length := by
  rw [besideName]
  split
  next ends =>
    rw [length_append, length_append, length_take]
    have four : cfgExtension.length = 4 := rfl
    omega
  · rw [length_append]

theorem besideName_ne (nonempty : suffix ≠ []) : besideName suffix cfgname ≠ cfgname := by
  intro same
  have lengths := length_besideName suffix cfgname
  rw [same] at lengths
  have positive := length_pos_iff.mpr nonempty
  omega

theorem tempName_ne : tempName cfgname ≠ cfgname :=
  besideName_ne cfgname (by decide)

theorem backupName_ne : backupName cfgname ≠ cfgname :=
  besideName_ne cfgname (by decide)

theorem tempName_ne_backupName : tempName cfgname ≠ backupName cfgname := by
  intro same
  have lengths := congrArg length same
  rw [tempName, backupName, length_besideName, length_besideName] at lengths
  simp at lengths

/-! ## What a crash leaves -/

theorem readAutosave_fst :
    (readAutosave files cfgname).1 = replaceCrLf ((files cfgname).getD []) := by
  rw [readAutosave]
  cases files cfgname with
  | none => rfl
  | some raw => rfl

section

variable (files : ConfigFiles) (cfgname : Text) (autosave : ConfigWrapper)

theorem run_take_createMissing (count : ℕ) :
    ∃ after, runEvents FileOp.apply files ((createMissing files cfgname).take count) =
        some after ∧
      (after cfgname).getD [] = (files cfgname).getD [] ∧
      ((createMissing files cfgname).length ≤ count → (after cfgname).isSome) ∧
      ∀ other, other ≠ cfgname → after other = files other := by
  rw [createMissing]
  rcases present : files cfgname with _ | raw
  · cases count with
    | zero =>
      refine ⟨files, rfl, ?_, fun finished => ?_, fun _ _ => rfl⟩
      · rw [present]
      · exact absurd finished (Nat.not_succ_le_zero 2)
    | succ count =>
      have created := update_self cfgname (some ([] : Text)) files
      have silent : ∀ op ∈ ([.chmod cfgname, .close cfgname] : List (FileOp Text Char)),
          op.Silent cfgname := forall_mem_cons.mpr ⟨rfl, forall_mem_singleton.mpr rfl⟩
      have ran := FileOp.run_silent (update files cfgname (some [])) created fun op member =>
        silent op (mem_of_mem_take (i := count) member)
      refine ⟨_, ran, ?_, fun _ => ?_, fun other different => ?_⟩
      · rw [created]
        rfl
      · rw [created]
        rfl
      · exact update_of_ne different _ _
  · refine ⟨files, ?_, ?_, fun _ => ?_, fun _ _ => rfl⟩
    · rw [Option.isSome_some, if_pos rfl, take_nil]
      rfl
    · rw [present]
    · rw [present]
      rfl

theorem run_writeTemp (data : Text) : runEvents FileOp.apply files (writeTemp cfgname data) =
      some (update files (tempName cfgname) (some data)) := by
  have created := update_self (tempName cfgname) (some ([] : Text)) files
  have written := update_self (tempName cfgname) (some data) files
  have wrote : (FileOp.write (tempName cfgname) data).apply
      (update files (tempName cfgname) (some [])) =
      some (update files (tempName cfgname) (some data)) := by
    rw [FileOp.apply, created, Option.map_some, update_idem, nil_append]
  refine runEvents_cons_eq_some.mpr ⟨_, rfl, runEvents_cons_eq_some.mpr ⟨_, wrote, ?_⟩⟩
  exact FileOp.run_silent _ written (forall_mem_cons.mpr ⟨rfl, forall_mem_singleton.mpr rfl⟩)

theorem run_take_prepareOps (count : ℕ) :
    ∃ after, runEvents FileOp.apply files ((prepareOps files cfgname autosave).take count) =
        some after ∧
      (after cfgname).getD [] = (files cfgname).getD [] ∧
      ∀ other, other ≠ cfgname → other ≠ tempName cfgname → after other = files other := by
  rcases run_take_createMissing files cfgname count with ⟨created, ran, reads, _, others⟩
  have onTemp : ∀ op ∈ (writeTemp cfgname (newData files cfgname autosave)).tail,
      op.OnlyOn (tempName cfgname) := by
    exact forall_mem_cons.mpr ⟨rfl, forall_mem_cons.mpr ⟨rfl, forall_mem_singleton.mpr rfl⟩⟩
  have writing := FileOp.run_take_create created onTemp
    (count - (createMissing files cfgname).length)
  rcases writing with ⟨after, wrote, kept⟩
  refine ⟨after, ?_, ?_, fun other notCfg notTemp => ?_⟩
  · rw [prepareOps, take_append, runEvents_append ran]
    exact wrote
  · rw [kept cfgname (tempName_ne cfgname).symm, reads]
  · rw [kept other notTemp, others other notCfg]

/-- Then the autosave file exists and the new data is in the temporary file. -/
theorem run_prepareOps :
    ∃ ready, runEvents FileOp.apply files (prepareOps files cfgname autosave) = some ready ∧
      ready cfgname = some ((files cfgname).getD []) ∧
      ready (tempName cfgname) = some (newData files cfgname autosave) ∧
      ∀ other, other ≠ cfgname → other ≠ tempName cfgname → ready other = files other := by
  rcases run_take_createMissing files cfgname (createMissing files cfgname).length with
    ⟨created, ran, reads, finished, others⟩
  rw [take_length] at ran
  refine ⟨update created (tempName cfgname) (some (newData files cfgname autosave)),
    ?_, ?_, ?_, fun other notCfg notTemp => ?_⟩
  · rw [prepareOps, runEvents_append ran, run_writeTemp]
  · rw [update_of_ne (tempName_ne cfgname).symm]
    rcases Option.isSome_iff_exists.mp (finished le_rfl) with ⟨raw, present⟩
    rw [← reads, present]
    rfl
  · exact update_self _ _ _
  · rw [update_of_ne notTemp, others other notCfg]

/-! ## Crash points -/

structure CrashState (after : ConfigFiles) (count : ℕ) : Prop where
  before : count ≤ (prepareOps files cfgname autosave).length →
    (after cfgname).getD [] = (files cfgname).getD []
  between : count = (prepareOps files cfgname autosave).length + 1 → after cfgname = none
  finished : (prepareOps files cfgname autosave).length + 1 < count →
    after cfgname = some (newData files cfgname autosave)
  others : ∀ other, other ≠ cfgname → other ≠ tempName cfgname → other ≠ backupName cfgname →
    after other = files other

theorem apply_rename_backup {ready : ConfigFiles} {old new : Text}
    (oldData : ready cfgname = some old) (newData : ready (tempName cfgname) = some new) :
    ∃ moved, (FileOp.rename cfgname (backupName cfgname)).apply ready = some moved ∧
      moved cfgname = none ∧ moved (tempName cfgname) = some new ∧
      ∀ other, other ≠ cfgname → other ≠ backupName cfgname → moved other = ready other := by
  refine ⟨_, FileOp.apply_rename oldData, ?_, ?_, fun other notCfg notBackup => ?_⟩
  · rw [update_of_ne (backupName_ne cfgname).symm, update_self]
  · rw [update_of_ne (tempName_ne_backupName cfgname), update_of_ne (tempName_ne cfgname), newData]
  · rw [update_of_ne notBackup, update_of_ne notCfg]

theorem apply_rename_temp {moved : ConfigFiles} {new : Text}
    (newData : moved (tempName cfgname) = some new) :
    ∃ saved, (FileOp.rename (tempName cfgname) cfgname).apply moved = some saved ∧
      saved cfgname = some new ∧
      ∀ other, other ≠ cfgname → other ≠ tempName cfgname → saved other = moved other := by
  refine ⟨_, FileOp.apply_rename newData, ?_, fun other notCfg notTemp => ?_⟩
  · exact update_self _ _ _
  · rw [update_of_ne notCfg, update_of_ne notTemp]

theorem run_take_cmdSaveConfig (count : ℕ) :
    ∃ after, runEvents FileOp.apply files ((cmdSaveConfig files cfgname autosave).take count) =
        some after ∧ CrashState files cfgname autosave after count := by
  by_cases early : count ≤ (prepareOps files cfgname autosave).length
  · rcases run_take_prepareOps files cfgname autosave count with ⟨after, ran, reads, others⟩
    refine ⟨after, ?_, fun _ => reads, fun _ => by omega, fun _ => by omega,
      fun other notCfg notTemp _ => others other notCfg notTemp⟩
    rw [cmdSaveConfig, take_append_of_le_length early, ran]
  rcases run_prepareOps files cfgname autosave with ⟨ready, ran, old, new, others⟩
  rcases apply_rename_backup cfgname old new with ⟨moved, renamed, missing, kept, same⟩
  rw [cmdSaveConfig, take_append, take_of_length_le (by omega), runEvents_append ran]
  rcases later : count - (prepareOps files cfgname autosave).length with _ | _ | more
  · omega
  · refine ⟨moved, runEvents_cons_eq_some.mpr ⟨moved, renamed, rfl⟩, fun _ => by omega,
      fun _ => missing, fun _ => by omega, fun other notCfg notTemp notBackup => ?_⟩
    rw [same other notCfg notBackup, others other notCfg notTemp]
  rcases apply_rename_temp cfgname kept with ⟨saved, replaced, holds, unchanged⟩
  refine ⟨saved, ?_, fun _ => by omega, fun _ => by omega, fun _ => holds,
    fun other notCfg notTemp notBackup => ?_⟩
  · rw [take_of_length_le (Nat.le_add_left 2 more)]
    exact runEvents_cons_eq_some.mpr
      ⟨moved, renamed, runEvents_cons_eq_some.mpr ⟨saved, replaced, rfl⟩⟩
  · rw [unchanged other notCfg notTemp, same other notCfg notBackup, others other notCfg notTemp]

theorem readAutosave_of_crash {after : ConfigFiles} {count : ℕ}
    (state : CrashState files cfgname autosave after count) :
    ((readAutosave after cfgname).1 = (readAutosave files cfgname).1 ∨
        (readAutosave after cfgname).1 = replaceCrLf (newData files cfgname autosave)) ↔
      count ≠ (prepareOps files cfgname autosave).length + 1 ∨
        (readAutosave files cfgname).1 = [] := by
  rcases lt_trichotomy count ((prepareOps files cfgname autosave).length + 1) with
    early | between | late
  · have same : (readAutosave after cfgname).1 = (readAutosave files cfgname).1 := by
      rw [readAutosave_fst, readAutosave_fst, state.before (by omega)]
    exact iff_of_true (.inl same) (.inl (by omega))
  · have nothing : (readAutosave after cfgname).1 = [] := by
      rw [readAutosave_fst, state.between between]
      rfl
    have written : replaceCrLf (newData files cfgname autosave) ≠ [] := by
      rw [ne_eq, replaceCrLf_eq_nil_iff]
      apply append_ne_nil_of_right_ne_nil
      simp [autosaveBlock, joinLines]
    rw [nothing]
    constructor
    · rintro (old | new)
      · exact .inr old.symm
      · exact absurd new.symm written
    · rintro (elsewhere | old)
      · exact absurd between elsewhere
      · exact .inl old.symm
  · have same : (readAutosave after cfgname).1 = replaceCrLf (newData files cfgname autosave) := by
      rw [readAutosave_fst, state.finished late]
      rfl
    exact iff_of_true (.inr same) (.inl (by omega))

/-- After a crash between any two operations of `SAVE_CONFIG` the next `read_main_config` sees
the old or the new data of the autosave file exactly if the crash was not between the two
renames, or the old data is empty. It is not kept from reading by the crash. -/
theorem save_config_atomic_iff (filename : Text) (count : ℕ) :
    ∃ after, runEvents FileOp.apply files ((cmdSaveConfig files cfgname autosave).take count) =
        some after ∧
      ((files filename).isSome = true → filename ≠ cfgname → filename ≠ tempName cfgname →
        filename ≠ backupName cfgname → (readMainConfig after filename cfgname).isSome = true) ∧
      ∀ main rest, readMainConfig after filename cfgname = some (main, rest) →
        (main.autosaveData = (readAutosave files cfgname).1 ∨
            main.autosaveData = replaceCrLf (newData files cfgname autosave) ↔
          count + 1 ≠ (cmdSaveConfig files cfgname autosave).length ∨
            (readAutosave files cfgname).1 = []) := by
  rcases run_take_cmdSaveConfig files cfgname autosave count with ⟨after, ran, state⟩
  refine ⟨after, ran, fun present notCfg notTemp notBackup => ?_, fun main rest read => ?_⟩
  · rw [readMainConfig, Option.isSome_map, state.others filename notCfg notTemp notBackup]
    exact present
  rcases Option.map_eq_some_iff.mp read with ⟨raw, _, seen⟩
  cases seen
  have between : count + 1 ≠ (cmdSaveConfig files cfgname autosave).length ↔
      count ≠ (prepareOps files cfgname autosave).length + 1 := by
    rw [cmdSaveConfig, length_append]
    exact not_congr (by simp)
  rw [between]
  exact readAutosave_of_crash files cfgname autosave state

end

def savedFiles : ConfigFiles :=
  update (update (fun _ => none) "printer.cfg".toList (some []))
    "autosave.cfg".toList (some "\n#*# [mcu]\n".toList)

def savedConfig : ConfigWrapper := ⟨"[mcu]\n".toList, fun _ _ => none⟩

/-- After a crash between the renames, the printer starts with an empty autosave file. -/
theorem crash_loses_autosave :
    ((runEvents FileOp.apply savedFiles
        ((cmdSaveConfig savedFiles "autosave.cfg".toList savedConfig).take 5)).bind fun after =>
        (readMainConfig after "printer.cfg".toList "autosave.cfg".toList).map fun read =>
          (read.1.autosaveData, read.2 "autosave.cfg".toList)) = some ([], some []) ∧
      (readAutosave savedFiles "autosave.cfg".toList).1 ≠ [] ∧
      (cmdSaveConfig savedFiles "autosave.cfg".toList savedConfig).length = 6 := by
  decide +kernel

end CentauriCarbon.Config
