import CentauriCarbon.Config.AutosaveText
import CentauriCarbon.Foundation.Lines

/-! # Saved variables

`SAVE_VARIABLE` writes all variables to a file, one `name: value` to a line, and reads them back.
The reader takes the blank behind the colon for a part of the value.
-/

namespace CentauriCarbon.Config

open Function List

/-- An assignment to an entry of a `std::map`, which is kept in the order of the names. -/
def setVariable (name value : Text) : List (Text × Text) → List (Text × Text)
  | [] => [(name, value)]
  | (other, old) :: rest =>
    if name = other then (name, value) :: rest
    else if name < other then (name, value) :: (other, old) :: rest
    else (other, old) :: setVariable name value rest

/-- A line without a colon, or with nothing behind it, is skipped. -/
def loadLine (allvars : List (Text × Text)) (line : Text) : List (Text × Text) :=
  let value := (line.dropWhile (· ≠ ':')).tail
  if value = [] then allvars else setVariable (line.takeWhile (· ≠ ':')) value allvars

def loadVariables (file : Text) : List (Text × Text) := (getlines file).foldl loadLine []

structure SaveVariables where
  file : Text
  allVariables : List (Text × Text)

structure SaveCommand where
  varname : Text
  value : Text
  name_ok : varname ≠ [] ∧ ':' ∉ varname ∧ '\n' ∉ varname
  value_ok : value ≠ [] ∧ '\n' ∉ value

namespace SaveVariables

def start : SaveVariables := ⟨[], []⟩

def cmdSaveVariable (state : SaveVariables) (command : SaveCommand) : SaveVariables :=
  let newvars := setVariable command.varname command.value state.allVariables
  let file := joinLines (newvars.map fun item => item.1 ++ ':' :: ' ' :: item.2)
  ⟨file, loadVariables file⟩

/-- A command, or a restart if there is none. -/
def step (state : SaveVariables) : Option SaveCommand → SaveVariables
  | some command => state.cmdSaveVariable command
  | none => { state with allVariables := loadVariables state.file }

def run (history : List (Option SaveCommand)) : SaveVariables := history.foldl step start

/-- The values last given. -/
def given (history : List (Option SaveCommand)) : Text → Option Text :=
  history.foldl (fun values call =>
    call.elim values fun command => update values command.varname (some command.value))
    fun _ => none

def Keeps (history : List (Option SaveCommand)) : Prop :=
  ∀ name, (run history).allVariables.lookup name = given history name

theorem restarted (restarts : ∀ call ∈ history, call = none) :
    run history = start ∧ given history = fun _ => none := by
  rw [run, given]
  induction history with
  | nil => exact ⟨rfl, rfl⟩
  | cons call history induction =>
    rw [forall_mem_cons] at restarts
    rw [restarts.1]
    exact induction restarts.2

theorem getlines_joinLines (line : Text) (oneLine : '\n' ∉ line) :
    getlines (joinLines [line]) = [line] := by
  have pieces : (joinLines [line]).splitOn '\n' = [line] ++ [[]] := by
    rw [← splitOn_joined (forall_mem_singleton.mpr oneLine) not_mem_nil, append_nil]
    rfl
  rw [getlines, pieces]
  rfl

theorem allVariables_first (command : SaveCommand) :
    (start.cmdSaveVariable command).allVariables = [(command.varname, ' ' :: command.value)] := by
  have oneLine : '\n' ∉ command.varname ++ ':' :: ' ' :: command.value := by
    simp [command.name_ok.2.2, command.value_ok.2]
  have inName : ∀ c ∈ command.varname, decide (c ≠ ':') := fun c member =>
    decide_eq_true (ne_of_mem_of_not_mem member command.name_ok.2.1)
  rw [cmdSaveVariable, start, setVariable, map_singleton, loadVariables,
    getlines_joinLines _ oneLine, foldl_cons, foldl_nil, loadLine,
    dropWhile_append_of_pos inName, takeWhile_append_of_pos inName]
  simp [setVariable]

/-- The variables have the values last given, after each command and each restart, exactly if no
variable was saved. -/
theorem variables_kept_iff (history : List (Option SaveCommand)) :
    (∀ done, done <+: history → Keeps done) ↔ ∀ call ∈ history, call = none := by
  constructor
  · intro kept
    induction history using reverseRecOn with
    | nil => nofun
    | append_singleton history call induction =>
      have restarts := induction fun done before => kept done (before.trans <| prefix_append _ _)
      refine forall_mem_append.mpr ⟨restarts, forall_mem_singleton.mpr ?_⟩
      cases call with
      | none => rfl
      | some command =>
        -- The first command is the one that breaks it.
        have last := kept _ (prefix_refl _) command.varname
        rw [run, foldl_append, ← run, (restarted restarts).1, given, foldl_append, foldl_cons,
          foldl_nil, foldl_cons, foldl_nil, step, allVariables_first] at last
        simp at last
  · intro restarts done before name
    have none := restarted fun call member => restarts call (before.subset member)
    rw [none.1, none.2]
    rfl

/-- A variable that is saved once has a blank in front of its value, and another one after the next
command. -/
theorem saved_value_gets_blanks :
    let first : SaveCommand := ⟨['a'], ['1'], by decide, by decide⟩
    let second : SaveCommand := ⟨['b'], ['2'], by decide, by decide⟩
    (run [some first]).allVariables.lookup ['a'] = some [' ', '1'] ∧
      (run [some first, some second, none]).allVariables =
        [(['a'], [' ', ' ', '1']), (['b'], [' ', '2'])] := by
  decide +kernel

end SaveVariables

end CentauriCarbon.Config
