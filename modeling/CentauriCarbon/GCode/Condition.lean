import CentauriCarbon.Foundation.EventRun
import Mathlib.Data.Rat.Defs

/-! # Conditional G-code

`SET_CONDITION` and `SET_CONDITION_END` bracket commands that are only meant for some printers.
The dispatcher remembers in one flag that commands are to be ignored, whoever sends them. It is
compared with a reference that keeps the open brackets of each source apart.
-/

namespace CentauriCarbon.GCode

open Function

/-! ## The dispatcher -/

structure BedMeshState where
  executeCalibrate : Int
  printSurface : Int

structure CanvasState where
  connectState : Bool
  tChannel : Int → Int
  curChannel : Int

structure ConditionInput where
  bedMesh : Option BedMeshState
  canvas : Option CanvasState
  /-- `bed_mesh_detected` of the print statistics. -/
  bedMeshDetected : Option UInt32
  nozzleTemp : Option ℚ

/-- The parameters `A` and `B` of `SET_CONDITION`. A number that cannot be parsed may be any. -/
inductive Condition where
  | machineModel (b : Option String)
  | printCalibrate (b : Option Int)
  | surface (b : Option Int)
  | enableCanvas (b : Option Int)
  | bedMeshDatea (b : Option Int)
  | bedMeshDateb (b : Option Int)
  | bedMeshProfile (b : Option Int)
  | printTool (b : Option Int)
  | nozzleTemp (b : Option Int)
  | unknown

structure GCodeDispatch where
  isIgnore : Bool
  channelB : Int

inductive GCodeLine where
  | setCondition (condition : Condition)
  | setConditionEnd (b : Option Int)
  | other (cmd : String)

namespace GCodeDispatch

def initial : GCodeDispatch := ⟨false, -1⟩

variable (d : GCodeDispatch) (input : ConditionInput)

def ignoreIf (condition : Prop) [Decidable condition] : GCodeDispatch :=
  if condition then { d with isIgnore := true } else d

/-- `cmd_SET_CONDITION`; there is no result if it throws. -/
def cmdSetCondition : Condition → Option GCodeDispatch
  | .machineModel b => some (d.ignoreIf ("C" ≠ b.getD ""))
  | .printCalibrate b =>
    input.bedMesh.map fun bedMesh => d.ignoreIf (bedMesh.executeCalibrate ≠ b.getD (-1))
  | .surface b =>
    input.bedMesh.map fun bedMesh => d.ignoreIf (bedMesh.printSurface ≠ b.getD (-2))
  | .enableCanvas b =>
    match input.canvas with
    | none => some d
    | some canvas => some (d.ignoreIf (canvas.connectState.toInt ≠ b.getD (-2)))
  | .bedMeshDatea b =>
    match input.bedMeshDetected with
    | none => some d
    | some value =>
      some { d with isIgnore := (value &&& 0x0100 == 0x0100) ^^ (b.getD (-2) != 0) }
  | .bedMeshDateb b =>
    match input.bedMeshDetected with
    | none => some d
    | some value =>
      some { d with isIgnore := (value &&& 0x0001 == 0x0001) ^^ (b.getD (-2) != 0) }
  | .bedMeshProfile b =>
    input.bedMesh.map fun bedMesh => d.ignoreIf (bedMesh.printSurface ≠ b.getD (-2))
  | .printTool b =>
    match input.canvas with
    | none => some d
    | some canvas =>
      let channel := b.getD (-2)
      let d := { d with channelB := channel }
      if canvas.connectState then
        let value := canvas.tChannel channel
        some (d.ignoreIf (value ≠ -1 ∧ value = canvas.curChannel))
      else some { d with isIgnore := true }
  | .nozzleTemp b =>
    input.nozzleTemp.map fun value => d.ignoreIf (value ≥ ((b.getD (-1) : Int) : ℚ))
  | .unknown => some d

def cmdSetConditionEnd (b : Option Int) : GCodeDispatch :=
  let b := b.getD (-1)
  if b = -1 then { d with isIgnore := false }
  else if d.channelB = b then { d with isIgnore := false }
  else d

/-- The handler of a line; a handler that throws has not changed the flags. -/
def handler : GCodeLine → GCodeDispatch
  | .setCondition condition => (d.cmdSetCondition input condition).getD d
  | .setConditionEnd b => d.cmdSetConditionEnd b
  | .other _ => d

/-- The body of the loop of `process_commands`: was the line skipped? -/
def processCommand (line : GCodeLine) : GCodeDispatch × Bool :=
  if !d.isIgnore then (d.handler input line, false)
  else
    match line with
    | .setConditionEnd b => (d.handler input (.setConditionEnd b), false)
    | .setCondition _ => (d, true)
    | .other _ => (d, true)

end GCodeDispatch

def Condition.fails (input : ConditionInput) : Condition → Bool
  | .machineModel b => b ≠ some "C"
  | .printCalibrate b =>
    input.bedMesh.any fun bedMesh => bedMesh.executeCalibrate ≠ b.getD (-1)
  | .surface b | .bedMeshProfile b =>
    input.bedMesh.any fun bedMesh => bedMesh.printSurface ≠ b.getD (-2)
  | .enableCanvas b =>
    input.canvas.any fun canvas => canvas.connectState.toInt ≠ b.getD (-2)
  | .bedMeshDatea b =>
    input.bedMeshDetected.any fun value =>
      (value &&& 0x0100 == 0x0100) != (b.getD (-2) != 0)
  | .bedMeshDateb b =>
    input.bedMeshDetected.any fun value =>
      (value &&& 0x0001 == 0x0001) != (b.getD (-2) != 0)
  | .printTool b =>
    input.canvas.any fun canvas =>
      !canvas.connectState || (canvas.tChannel (b.getD (-2)) ≠ -1 ∧
        canvas.tChannel (b.getD (-2)) = canvas.curChannel)
  | .nozzleTemp b => input.nozzleTemp.any fun value => value ≥ ((b.getD (-1) : Int) : ℚ)
  | .unknown => false

structure Bracket where
  channel : Option Int

def Condition.bracket : Condition → Bracket
  | .printTool b => ⟨some (b.getD (-2))⟩
  | _ => ⟨none⟩

def Bracket.closedBy (bracket : Bracket) (b : Int) : Bool := b == -1 || bracket.channel == some b

/-- The brackets of one source from a condition that has failed on, the innermost one first. -/
def nextBrackets (input : ConditionInput) (brackets : List Bracket) : GCodeLine → List Bracket
  | .setCondition condition =>
    if brackets.isEmpty && !condition.fails input then [] else condition.bracket :: brackets
  | .setConditionEnd b =>
    match brackets with
    | [] => []
    | bracket :: outer => if bracket.closedBy (b.getD (-1)) then outer else bracket :: outer
  | .other _ => brackets

/-- Is the line one that the brackets hide? The ends of conditions are not commands to hide. -/
def hides (brackets : List Bracket) : GCodeLine → Bool
  | .setConditionEnd _ => false
  | .setCondition _ | .other _ => !brackets.isEmpty

/-- The dispatcher and the open brackets of each source, and for each line whether it was skipped
and whether it should have been. -/
structure ConditionRun (Source : Type) where
  dispatch : GCodeDispatch
  brackets : Source → List Bracket
  history : List (Bool × Bool)

inductive ConditionEvent (Source : Type) where
  | command (source : Source) (input : ConditionInput) (line : GCodeLine)
  /-- The print is cancelled: its file sends nothing more, and its brackets are void. -/
  | cancelPrint

namespace ConditionRun

variable {Source : Type} [DecidableEq Source]

def initial : ConditionRun Source := ⟨.initial, fun _ => [], []⟩

def step (printFile : Source) (run : ConditionRun Source) :
    ConditionEvent Source → Option (ConditionRun Source)
  | .command source input line =>
    let (dispatch, skipped) := run.dispatch.processCommand input line
    let brackets := run.brackets source
    some {
      dispatch
      brackets := update run.brackets source (nextBrackets input brackets line)
      history := run.history ++ [(skipped, hides brackets line)] }
  | .cancelPrint => some { run with brackets := update run.brackets printFile [] }

/-- What may come while a condition of `owner` has failed and is open: lines of the owner that
open no other condition, and its ends, unless they name the last tool and the condition is not
one of a tool. Other sources may only send ends that name another tool, and the print of the owner
is not cancelled. -/
def AllowedWhileOpen (printFile : Source) (run : ConditionRun Source) (owner : Source) :
    ConditionEvent Source → Prop
  | .cancelPrint => owner ≠ printFile
  | .command source _ (.other _) => source = owner
  | .command _ _ (.setCondition _) => False
  | .command source _ (.setConditionEnd b) =>
    (source = owner → b.getD (-1) = -1 ∨ b.getD (-1) ≠ run.dispatch.channelB ∨
      ∀ bracket ∈ run.brackets owner, bracket.channel ≠ none) ∧
    (source ≠ owner → b.getD (-1) ≠ -1 ∧ b.getD (-1) ≠ run.dispatch.channelB)

def Undisturbed (printFile : Source) (run : ConditionRun Source)
    (event : ConditionEvent Source) : Prop :=
  ∀ owner, run.brackets owner ≠ [] → run.AllowedWhileOpen printFile owner event

/-! ## Agreement -/

/-- Nothing is ignored and no failed condition is open, or one is, and the dispatcher knows its
tool if it has one. All lines so far were skipped exactly where they should have been. -/
structure Agrees (run : ConditionRun Source) : Prop where
  state : run.dispatch.isIgnore = false ∧ run.brackets = (fun _ => []) ∨
    ∃ owner bracket, run.dispatch.isIgnore = true ∧
      run.brackets = update (fun _ => []) owner [bracket] ∧
      ∀ channel, bracket.channel = some channel → run.dispatch.channelB = channel
  history : ∀ entry ∈ run.history, entry.1 = entry.2

end ConditionRun

namespace GCodeDispatch

variable {d : GCodeDispatch}

theorem channelB_cmdSetCondition (isTool : condition.bracket.channel = some channel)
    (fails : condition.fails input) :
    ((d.cmdSetCondition input condition).getD d).channelB = channel := by
  cases condition with
  | printTool b =>
    rw [Condition.fails] at fails
    rw [cmdSetCondition]
    cases hasCanvas : input.canvas with
    | none =>
      rw [hasCanvas] at fails
      cases fails
    | some canvas =>
      have same : b.getD (-2) = channel := Option.some.inj isTool
      dsimp only
      rw [same]
      split
      · rw [Option.getD_some, ignoreIf]
        split
        · rfl
        · rfl
      · rfl
  | _ => cases isTool

section

variable (running : d.isIgnore = false)
include running

theorem isIgnore_ignoreIf (condition : Prop) [Decidable condition] :
    (d.ignoreIf condition).isIgnore = decide condition := by
  rw [ignoreIf]
  split
  next holds => exact (decide_eq_true holds).symm
  next fails => exact running.trans (decide_eq_false fails).symm

/-- A test of an object that may be missing, in which case the handler throws. -/
theorem isIgnore_map {Object : Type} (object : Option Object) (condition : Object → Prop)
    [DecidablePred condition] :
    ((object.map fun value => d.ignoreIf (condition value)).getD d).isIgnore =
      object.any fun value => condition value := by
  cases object with
  | none => exact running
  | some value => exact isIgnore_ignoreIf running (condition value)

/-- While nothing is ignored, `SET_CONDITION` starts to ignore if its test fails. -/
theorem isIgnore_cmdSetCondition (input : ConditionInput) (condition : Condition) :
    ((d.cmdSetCondition input condition).getD d).isIgnore = condition.fails input := by
  cases condition with
  | machineModel b =>
    refine (isIgnore_ignoreIf running _).trans ?_
    cases b with
    | none => rfl
    | some model => simp [Condition.fails, eq_comm]
  | printCalibrate | surface | bedMeshProfile => exact isIgnore_map running input.bedMesh _
  | nozzleTemp b => exact isIgnore_map running input.nozzleTemp _
  | enableCanvas b =>
    rw [cmdSetCondition, Condition.fails]
    cases input.canvas with
    | none => exact running
    | some canvas => exact isIgnore_ignoreIf running _
  | bedMeshDatea | bedMeshDateb =>
    rw [cmdSetCondition, Condition.fails]
    cases input.bedMeshDetected with
    | none => exact running
    | some value => rfl
  | printTool b =>
    rw [cmdSetCondition, Condition.fails]
    cases input.canvas with
    | none => exact running
    | some canvas =>
      have named : ({ d with channelB := b.getD (-2) } : GCodeDispatch).isIgnore = false := running
      dsimp only
      cases isConnected : canvas.connectState with
      | false => simp [isConnected]
      | true =>
        rw [if_pos rfl, Option.getD_some, isIgnore_ignoreIf named]
        simp [isConnected]
  | unknown => exact running

theorem processCommand_running (input : ConditionInput) (line : GCodeLine) :
    d.processCommand input line = (d.handler input line, false) := by
  unfold processCommand
  rw [running]
  rfl

end

theorem processCommand_ignoring (ignoring : d.isIgnore) (input : ConditionInput)
    (line : GCodeLine) : d.processCommand input line =
      match line with
      | .setConditionEnd b => (d.cmdSetConditionEnd b, false)
      | .setCondition _ | .other _ => (d, true) := by
  unfold processCommand
  rw [ignoring]
  cases line with
  | setCondition condition => rfl
  | setConditionEnd b => rfl
  | other cmd => rfl

/-- An end closes what is ignored if it names no tool or the last tool. -/
theorem isIgnore_cmdSetConditionEnd (d : GCodeDispatch) (b : Option Int) :
    (d.cmdSetConditionEnd b).isIgnore =
        (d.isIgnore && !decide (b.getD (-1) = -1 ∨ d.channelB = b.getD (-1))) ∧
      (d.cmdSetConditionEnd b).channelB = d.channelB := by
  rw [cmdSetConditionEnd]
  by_cases unnamed : b.getD (-1) = -1
  · simp [unnamed]
  · by_cases last : d.channelB = b.getD (-1)
    · simp [unnamed, last]
    · simp [unnamed, last]

end GCodeDispatch

namespace ConditionRun

variable {Source : Type} [DecidableEq Source] {run : ConditionRun Source}

theorem history_concat {history : List (Bool × Bool)} (agree : ∀ entry ∈ history, entry.1 = entry.2)
    (skipped : Bool) : ∀ entry ∈ history ++ [(skipped, skipped)], entry.1 = entry.2 :=
  List.forall_mem_append.mpr ⟨agree, List.forall_mem_singleton.mpr rfl⟩

variable {bracket : Bracket}

theorem Agrees.command_running (agrees : run.Agrees) (running : run.dispatch.isIgnore = false)
    (closed : run.brackets = fun _ => []) {source : Source}
    (stepped : run.step printFile (.command source input line) = some next) : next.Agrees := by
  rw [step, GCodeDispatch.processCommand_running running, closed] at stepped
  cases stepped
  have visible : hides [] line = false := by
    cases line with
    | setCondition condition => rfl
    | setConditionEnd b => rfl
    | other cmd => rfl
  have same : update (fun _ : Source => ([] : List Bracket)) source [] = fun _ => [] :=
    update_eq_self source _
  refine ⟨?_, ?_⟩
  · dsimp only
    cases line with
    | other cmd => exact .inl ⟨running, same⟩
    | setConditionEnd b =>
      refine .inl ⟨?_, same⟩
      rw [GCodeDispatch.handler, (run.dispatch.isIgnore_cmdSetConditionEnd b).1, running]
      rfl
    | setCondition condition =>
      have ignores := GCodeDispatch.isIgnore_cmdSetCondition running input condition
      rw [GCodeDispatch.handler, nextBrackets]
      cases fails : condition.fails input with
      | false => exact .inl ⟨ignores.trans fails, same⟩
      | true =>
        right
        refine ⟨source, condition.bracket, ignores.trans fails, rfl, ?_⟩
        intro channel isTool
        exact GCodeDispatch.channelB_cmdSetCondition isTool fails
  · dsimp only
    rw [visible]
    exact history_concat agrees.history false

/-- An end of the owner closes the condition if and only if the dispatcher takes it to. -/
theorem closedBy_eq {d : GCodeDispatch}
    (remembered : ∀ channel, bracket.channel = some channel → d.channelB = channel)
    (proper : b = -1 ∨ b ≠ d.channelB ∨ bracket.channel ≠ none) :
    bracket.closedBy b = decide (b = -1 ∨ d.channelB = b) := by
  rw [Bracket.closedBy, Bool.eq_iff_iff, Bool.or_eq_true, beq_iff_eq, beq_iff_eq,
    decide_eq_true_iff]
  apply or_congr_right'
  intro named
  constructor
  · exact remembered b
  intro last
  rcases proper with unnamed | notLast | isTool
  · exact absurd unnamed named
  · exact absurd last.symm notLast
  · rcases Option.ne_none_iff_exists'.mp isTool with ⟨channel, isChannel⟩
    rw [isChannel, ← last, remembered channel isChannel]

/-- While lines are ignored, those of the owner are skipped until the condition is closed. -/
theorem Agrees.command_ignoring (agrees : run.Agrees) (ignoring : run.dispatch.isIgnore)
    {owner : Source} (opened : run.brackets = update (fun _ => []) owner [bracket])
    (remembered : ∀ channel, bracket.channel = some channel → run.dispatch.channelB = channel)
    (undisturbed : run.Undisturbed printFile (.command source input line))
    (stepped : run.step printFile (.command source input line) = some next) : next.Agrees := by
  have atOwner : run.brackets owner = [bracket] := by
    rw [opened, update_self]
  have condition := undisturbed owner (by simp [atOwner])
  rw [step, GCodeDispatch.processCommand_ignoring ignoring] at stepped
  cases line with
  | setCondition other => exact condition.elim
  | other cmd =>
    have isOwner : source = owner := condition
    subst isOwner
    rw [atOwner] at stepped
    cases stepped
    refine ⟨.inr ⟨source, bracket, ignoring, ?_, remembered⟩, ?_⟩
    · dsimp only [nextBrackets]
      rw [opened, update_idem]
    · exact history_concat agrees.history true
  | setConditionEnd b =>
    cases stepped
    refine ⟨?_, history_concat agrees.history false⟩
    rcases run.dispatch.isIgnore_cmdSetConditionEnd b with ⟨ignores, sameChannel⟩
    rw [ignoring, Bool.true_and] at ignores
    by_cases isOwner : source = owner
    · subst isOwner
      rw [atOwner, nextBrackets, closedBy_eq remembered ?_, opened, update_idem]
      · cases closes : decide (b.getD (-1) = -1 ∨ run.dispatch.channelB = b.getD (-1)) with
        | true =>
          rw [closes] at ignores
          exact .inl ⟨ignores, update_eq_self source _⟩
        | false =>
          rw [closes] at ignores
          refine .inr ⟨source, bracket, ignores, rfl, ?_⟩
          rw [sameChannel]
          exact remembered
      · refine (condition.1 rfl).imp_right (Or.imp_right fun tools => ?_)
        exact tools bracket (by simp [atOwner])
    · have closed : run.brackets source = [] := by
        rw [opened, update_of_ne isOwner]
      have keepsOpen := condition.2 isOwner
      refine .inr ⟨owner, bracket, ?_, ?_, ?_⟩
      · rw [ignores]
        simp [keepsOpen.1, Ne.symm keepsOpen.2]
      · rw [closed, nextBrackets, ← opened]
        exact update_eq_self_iff.mpr closed.symm
      · rw [sameChannel]
        exact remembered

theorem Agrees.cancelPrint (agrees : run.Agrees)
    (undisturbed : run.Undisturbed printFile .cancelPrint)
    (stepped : run.step printFile .cancelPrint = some next) : next.Agrees := by
  have closed : run.brackets printFile = [] := by
    by_contra opened
    exact undisturbed printFile opened rfl
  cases stepped
  rw [update_eq_self_iff.mpr closed.symm]
  exact agrees

theorem Agrees.step (agrees : run.Agrees) (undisturbed : run.Undisturbed printFile event)
    (stepped : run.step printFile event = some next) : next.Agrees := by
  cases event with
  | cancelPrint => exact agrees.cancelPrint undisturbed stepped
  | command source input line =>
    rcases agrees.state with ⟨running, closed⟩ | ⟨owner, bracket, ignoring, opened, remembered⟩
    · exact agrees.command_running running closed stepped
    · exact agrees.command_ignoring ignoring opened remembered undisturbed stepped

theorem agrees_initial : (initial : ConditionRun Source).Agrees where
  state := .inl ⟨rfl, rfl⟩
  history := nofun

end ConditionRun

/-- In every run in which an open condition is not disturbed, a line is skipped if and only if it
is of a source with an open condition that has failed. -/
theorem skipped_iff_bracketed {Source : Type} [DecidableEq Source] (printFile : Source)
    {events : List (ConditionEvent Source)} {final : ConditionRun Source}
    (ran : runEvents (ConditionRun.step printFile) .initial events = some final)
    (undisturbed : RunMeets (ConditionRun.step printFile) (ConditionRun.Undisturbed printFile)
      .initial events) : ∀ entry ∈ final.history, entry.1 = entry.2 := by
  have agrees : final.Agrees :=
    runEvents_invariant_of_meets
      (fun _ _ _ agrees undisturbed stepped => agrees.step undisturbed stepped)
      ConditionRun.agrees_initial undisturbed ran
  exact agrees.history

inductive CommandSource where
  | printFile
  | console
  deriving DecidableEq

def sent (source : CommandSource) (line : GCodeLine) : ConditionEvent CommandSource :=
  .command source ⟨none, none, none, none⟩ line

def otherModel : ConditionEvent CommandSource :=
  sent .printFile (.setCondition (.machineModel (some "D")))

/-- A move for the other printer is skipped, and the console is served after the end. -/
theorem skipped_iff_bracketed_other_model :
    ∃ final, runEvents (ConditionRun.step CommandSource.printFile) .initial
        [otherModel, sent .printFile (.other "G1"), sent .printFile (.setConditionEnd none),
          sent .console (.other "PAUSE")] = some final ∧
      final.history = [(false, false), (true, true), (false, false), (false, false)] ∧
      ∀ entry ∈ final.history, entry.1 = entry.2 := by
  refine exists_of_ran rfl fun ran => ⟨by decide, skipped_iff_bracketed .printFile ran ?_⟩
  refine .cons ?_ rfl (.cons ?_ rfl (.cons ?_ rfl (.cons ?_ rfl trivial)))
  · intro owner opened
    exact absurd rfl opened
  · intro owner opened
    cases owner with
    | printFile => rfl
    | console => exact absurd rfl opened
  · intro owner opened
    cases owner with
    | printFile => exact ⟨fun _ => .inl rfl, fun other => absurd rfl other⟩
    | console => exact absurd rfl opened
  · intro owner opened
    cases owner with
    | printFile | console => exact absurd rfl opened

/-- Lines of the console are skipped, the end of an inner condition closes the outer one, and a
cancelled print leaves the dispatcher ignoring everything. -/
theorem condition_hides_other_lines :
    (runEvents (ConditionRun.step CommandSource.printFile) .initial
        [otherModel, sent .console (.other "CANCEL_PRINT")]).map ConditionRun.history =
      some [(false, false), (true, false)] ∧
    (runEvents (ConditionRun.step CommandSource.printFile) .initial
        [otherModel, otherModel, sent .printFile (.setConditionEnd none),
          sent .printFile (.other "G1")]).map ConditionRun.history =
      some [(false, false), (true, true), (false, false), (false, true)] ∧
    (runEvents (ConditionRun.step CommandSource.printFile) .initial
        [otherModel, .cancelPrint, sent .console (.other "G28")]).map ConditionRun.history =
      some [(false, false), (true, false)] := by
  decide

end CentauriCarbon.GCode
