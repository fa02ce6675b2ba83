import CentauriCarbon.GCode.ExcludeObject
import CentauriCarbon.GCode.PositionSync

/-! # Moves of excluded objects

The commands of `ExcludeObject` and the moves that are issued between them. `_register_transform`
is to put the transform in front of the toolhead when the first object is excluded, but it returns
early if there is no next transform, and there is none before it is registered. The tuning tower
is not active.
-/

namespace CentauriCarbon.GCode

structure ExcludePrinter where
  machine : Machine
  /-- Who `move_with_transform` and `position_with_transform` belong to. -/
  transform : Transform
  exclude : ExcludeObject
  /-- The name of the extruder of the toolhead. -/
  extruder : String
  /-- The targets of all calls of `ToolHead::move`. -/
  forwarded : List Position

/-- `EXCLUDE_OBJECT_DEFINE`, `EXCLUDE_OBJECT_START`, `EXCLUDE_OBJECT_END`, `EXCLUDE_OBJECT` and
`G1`. A parameter that is not given is the empty text where the source reads it as such. -/
inductive ExcludeEvent where
  | define (reset name : String)
  | start (commandline : String) (name : Option String)
  | endObject (name : String)
  | exclude (reset current name : String)
  | g1 (command : MoveCommand)

def toUpper (name : String) : String := .ofList (name.toList.map Char.toUpper)

namespace ExcludePrinter

/-- What a handler does: it throws with the state at that time, or it does not return. -/
abbrev Handled := Option (Except (GCodeError × ExcludePrinter) ExcludePrinter)

variable (printer : ExcludePrinter)

/-- `position_with_transform`; a call of the null pointer or of itself does not return. -/
def positionWithTransform : Option (Position × ExcludePrinter) :=
  match printer.transform with
  | .toolhead => some (printer.machine.commandedPos, printer)
  | .excludeObject =>
    match printer.exclude.nextTransform with
    | some .toolhead =>
      let (pos, exclude) :=
        printer.exclude.getPosition printer.extruder printer.machine.commandedPos
      some (pos, { printer with exclude })
    | some .excludeObject => none
    | none => none

def setGCodeMove (gcodeMove : GCodeMove) : ExcludePrinter :=
  { printer with machine := { printer.machine with gcodeMove } }

def resetLastPosition : Option ExcludePrinter :=
  if printer.machine.gcodeMove.isPrinterReady then
    printer.positionWithTransform.map fun (pos, printer) =>
      printer.setGCodeMove { printer.machine.gcodeMove with lastPosition := pos }
  else some printer

def forward (checks : MoveChecks) (newpos : Position) :
    Except (GCodeError × ExcludePrinter) ExcludePrinter :=
  let printer := { printer with forwarded := printer.forwarded ++ [newpos] }
  match toolheadMove checks printer.machine.commandedPos newpos with
  | .error text => .error (.command text, printer)
  | .ok commandedPos => .ok { printer with machine := { printer.machine with commandedPos } }

def moveWithTransform (checks : MoveChecks) (newpos : Position) : Handled :=
  match printer.transform with
  | .toolhead => some (printer.forward checks newpos)
  | .excludeObject =>
    let (exclude, passed) := printer.exclude.move printer.extruder newpos
    let printer := { printer with exclude }
    match passed with
    | none => some (.ok printer)
    | some target =>
      match exclude.nextTransform with
      | some .toolhead => some (printer.forward checks target)
      | some .excludeObject => none
      | none => none

def cmdG1 (command : MoveCommand) : Handled :=
  match printer.machine.gcodeMove.readParameters command.g1 with
  | .error (error, gcodeMove) => some (.error (error, printer.setGCodeMove gcodeMove))
  | .ok gcodeMove =>
    (printer.setGCodeMove gcodeMove).moveWithTransform command.checks gcodeMove.lastPosition

def registerTransform : ExcludePrinter :=
  match printer.exclude.nextTransform with
  | none => printer
  | some _ =>
    { printer with
      transform := .excludeObject
      exclude := { printer.exclude with
        nextTransform := some printer.transform
        extrusionOffsets := fun _ => none
        maxPositionExtruded := 0
        maxPositionExcluded := 0
        extruderAdj := 0
        initialExtrusionMoves := 5
        lastPosition := .zero
        lastPositionExtruded := .zero
        lastPositionExcluded := .zero } }

def unregisterTransform : Option ExcludePrinter :=
  match printer.exclude.nextTransform with
  | none => some printer
  | some next =>
    { printer with
      transform := next
      exclude := { printer.exclude with nextTransform := none } }.resetLastPosition

def resetFile : Option ExcludePrinter :=
  { printer with exclude := printer.exclude.resetState }.unregisterTransform

def excludeObject (name : String) : ExcludePrinter :=
  let printer := printer.registerTransform
  { printer with exclude := printer.exclude.addExcluded name }

def cmdExcludeObjectStart (commandline : String) : Option String → Handled
  | none =>
    some (.error (.command ("Error on '" ++ commandline ++ "': missing NAME"), printer))
  | some name =>
    let name := toUpper name
    let exclude :=
      if name ∈ printer.exclude.objects then printer.exclude
      else printer.exclude.addObjectDefinition name
    let exclude := { exclude with currentObject := name }
    some (.ok { printer with
      exclude := { exclude with wasExcludedAtStart := exclude.testInExcludedRegion } })

/-- `cmd_EXCLUDE_OBJECT_END`; the name is only compared for a message. -/
def cmdExcludeObjectEnd : Handled :=
  if printer.exclude.currentObject = "" ∧ printer.exclude.nextTransform.isSome then
    some (.ok printer)
  else some (.ok { printer with exclude := { printer.exclude with currentObject := "" } })

def cmdExcludeObject (reset current name : String) : Handled :=
  let name := toUpper name
  if reset ≠ "" then
    if name ≠ "" then
      some (.ok { printer with exclude := printer.exclude.unexcludeObject name })
    else some (.ok { printer with exclude := { printer.exclude with excludedObjects := [] } })
  else if name ≠ "" then
    if name ∈ printer.exclude.excludedObjects then some (.ok printer)
    else some (.ok (printer.excludeObject name))
  else if current ≠ "" then
    if printer.exclude.currentObject = "" then
      some (.error (.command "There is no current object to cancel", printer))
    else some (.ok (printer.excludeObject printer.exclude.currentObject))
  else some (.ok printer)

def cmdExcludeObjectDefine (reset name : String) : Handled :=
  let name := toUpper name
  if reset ≠ "" then printer.resetFile.map .ok
  else if name ≠ "" then
    some (.ok { printer with exclude := printer.exclude.addObjectDefinition name })
  else some (.ok printer)

def handle : ExcludeEvent → Handled
  | .define reset name => printer.cmdExcludeObjectDefine reset name
  | .start commandline name => printer.cmdExcludeObjectStart commandline name
  | .endObject _ => printer.cmdExcludeObjectEnd
  | .exclude reset current name => printer.cmdExcludeObject reset current name
  | .g1 command => printer.cmdG1 command

def handles : Bool := !printer.machine.isIgnore && printer.machine.gcodeMove.isPrinterReady

def processCommand (event : ExcludeEvent) : Option ExcludePrinter :=
  if printer.machine.isIgnore then some printer
  else if !printer.machine.gcodeMove.isPrinterReady then printer.resetLastPosition
  else
    match printer.handle event with
    | none => none
    | some (.ok printer) => some printer
    | some (.error (.command _, printer)) => printer.resetLastPosition
    | some (.error (.internal, printer)) =>
      some { printer with machine := printer.machine.invokeShutdown }

def issued : ExcludeEvent → Option Position
  | .g1 command =>
    if printer.handles then
      (printer.machine.gcodeMove.readParameters command.g1).toOption.map (·.lastPosition)
    else none
  | .define _ _ | .start _ _ | .endObject _ | .exclude _ _ _ => none

end ExcludePrinter

/-! ## Runs -/

/-- The printer, and how many extruding moves have reached the toolhead since an object was first
excluded. -/
structure ExcludeRun where
  printer : ExcludePrinter
  passed : Option ℕ

namespace ExcludeRun

def extrudes (printer : ExcludePrinter) (event : ExcludeEvent) : Bool :=
  (printer.issued event).any fun newpos => newpos.e ≠ printer.machine.gcodeMove.lastPosition.e

variable (run : ExcludeRun)

def countPassed (after : ExcludePrinter) : ExcludeEvent → Option ℕ
  | .define reset _ => if run.printer.handles && reset ≠ "" then none else run.passed
  | .exclude _ _ _ =>
    if after.exclude.excludedObjects = [] then run.passed else some (run.passed.getD 0)
  | .g1 command =>
    if extrudes run.printer (.g1 command) &&
        run.printer.forwarded.length < after.forwarded.length then
      run.passed.map (· + 1)
    else run.passed
  | .start _ _ | .endObject _ => run.passed

def step (event : ExcludeEvent) : Option ExcludeRun :=
  (run.printer.processCommand event).map fun after => ⟨after, run.countPassed after event⟩

/-- No file is printed yet; what the constructor does not initialise is arbitrary. -/
def afterReset (machine : Machine) (uninitialised : ExcludeObject) (extruder : String) :
    ExcludeRun where
  printer :=
    { machine
      transform := .toolhead
      exclude := { uninitialised with
        nextTransform := none
        lastPositionExtruded := .zero
        lastPositionExcluded := .zero
        lastPosition := .zero
        extrusionOffsets := fun _ => none }.resetState
      extruder
      forwarded := [] }
  passed := none

def CurrentExcluded : Prop :=
  run.printer.exclude.currentObject ∈ run.printer.exclude.excludedObjects

/-- What is asked of a move: in an excluded object it is not forwarded once five extruding moves
have passed, and outside of excluded objects it is forwarded to its target. -/
def Obeyed (newpos : Position) (after : ExcludePrinter) : Prop :=
  (run.CurrentExcluded → 5 ≤ run.passed.getD 0 → after.forwarded = run.printer.forwarded) ∧
    (¬run.CurrentExcluded →
      ∃ target, after.forwarded = run.printer.forwarded ++ [target] ∧ target.SamePlace newpos)

end ExcludeRun

/-! ## The transform is never registered -/

namespace ExcludePrinter

def Unregistered (printer : ExcludePrinter) : Prop :=
  printer.transform = .toolhead ∧ printer.exclude.nextTransform = none

def left : Except (GCodeError × ExcludePrinter) ExcludePrinter → ExcludePrinter
  | .ok printer => printer
  | .error (_, printer) => printer

def Forwards (printer : ExcludePrinter) (handled : Handled) (moves : List Position) : Prop :=
  ∃ result, handled = some result ∧ (left result).Unregistered ∧
    (left result).forwarded = printer.forwarded ++ moves

variable {printer : ExcludePrinter}

theorem resetLastPosition_of_toolhead (direct : printer.transform = .toolhead) :
    printer.resetLastPosition =
      some { printer with machine := printer.machine.resetLastPosition } := by
  have position : printer.positionWithTransform = some (printer.machine.commandedPos, printer) := by
    rw [positionWithTransform, direct]
  rw [resetLastPosition, Machine.resetLastPosition, position]
  split
  · rfl
  · rfl

theorem issued_of_not_handles (unhandled : printer.handles = false) (event : ExcludeEvent) :
    printer.issued event = none := by
  cases event with
  | g1 command =>
    rw [issued, unhandled]
    rfl
  | define reset name => rfl
  | start commandline name => rfl
  | endObject name => rfl
  | exclude reset current name => rfl

/-- A move goes to the toolhead, whether the toolhead makes it or not. -/
theorem forward_left (printer : ExcludePrinter) (checks : MoveChecks) (newpos : Position) :
    (left (printer.forward checks newpos)).transform = printer.transform ∧
      (left (printer.forward checks newpos)).exclude = printer.exclude ∧
      (left (printer.forward checks newpos)).forwarded = printer.forwarded ++ [newpos] := by
  rw [forward]
  split
  · exact ⟨rfl, rfl, rfl⟩
  · exact ⟨rfl, rfl, rfl⟩

section

variable (unregistered : printer.Unregistered)
include unregistered

theorem forwards_throw (error : GCodeError) :
    printer.Forwards (some (.error (error, printer))) [] :=
  ⟨_, rfl, unregistered, (List.append_nil _).symm⟩

theorem forwards_exclude {exclude : ExcludeObject}
    (same : exclude.nextTransform = printer.exclude.nextTransform) :
    printer.Forwards (some (.ok { printer with exclude })) [] :=
  ⟨_, rfl, ⟨unregistered.1, same.trans unregistered.2⟩, (List.append_nil _).symm⟩

theorem resetLastPosition_of_unregistered :
    ∃ after, printer.resetLastPosition = some after ∧ after.Unregistered ∧
      after.forwarded = printer.forwarded :=
  ⟨_, resetLastPosition_of_toolhead unregistered.1, unregistered, rfl⟩

theorem excludeObject_forwards (name : String) :
    printer.Forwards (some (.ok (printer.excludeObject name))) [] := by
  rw [excludeObject, registerTransform, unregistered.2]
  dsimp only
  apply forwards_exclude unregistered
  rw [ExcludeObject.addExcluded]
  split
  · rfl
  · rfl

theorem cmdExcludeObject_forwards (reset current name : String) :
    printer.Forwards (printer.cmdExcludeObject reset current name) [] := by
  rw [cmdExcludeObject]
  split
  · split
    · apply forwards_exclude unregistered
      rw [ExcludeObject.unexcludeObject]
      split
      · rfl
      · rfl
    · exact forwards_exclude unregistered rfl
  split
  · split
    · exact forwards_exclude unregistered rfl
    · exact excludeObject_forwards unregistered _
  split
  · split
    · exact forwards_throw unregistered _
    · exact excludeObject_forwards unregistered _
  · exact forwards_exclude unregistered rfl

theorem cmdExcludeObjectDefine_forwards (reset name : String) :
    printer.Forwards (printer.cmdExcludeObjectDefine reset name) [] := by
  rw [cmdExcludeObjectDefine]
  split
  · have resetState : printer.resetFile =
        some { printer with exclude := printer.exclude.resetState } := by
      rw [resetFile, unregisterTransform]
      dsimp only [ExcludeObject.resetState]
      rw [unregistered.2]
    rw [resetState]
    exact forwards_exclude unregistered rfl
  · split
    · exact forwards_exclude unregistered rfl
    · exact forwards_exclude unregistered rfl

theorem moveWithTransform_forwards (checks : MoveChecks) (newpos : Position) :
    printer.Forwards (printer.moveWithTransform checks newpos) [newpos] := by
  rcases printer.forward_left checks newpos with ⟨transform, exclude, moved⟩
  have direct : printer.moveWithTransform checks newpos = some (printer.forward checks newpos) := by
    rw [moveWithTransform, unregistered.1]
  refine ⟨_, direct, ⟨?_, ?_⟩, moved⟩
  · rw [transform, unregistered.1]
  · rw [exclude, unregistered.2]

theorem cmdG1_forwards (handles : printer.handles) (command : MoveCommand) :
    printer.Forwards (printer.cmdG1 command) (printer.issued (.g1 command)).toList := by
  rw [cmdG1, issued, if_pos handles]
  rcases printer.machine.gcodeMove.readParameters command.g1 with ⟨error, gcodeMove⟩ | gcodeMove
  · exact ⟨_, rfl, unregistered, (List.append_nil _).symm⟩
  · have same : (printer.setGCodeMove gcodeMove).Unregistered := unregistered
    exact moveWithTransform_forwards same command.checks gcodeMove.lastPosition

theorem handle_forwards (handles : printer.handles) (event : ExcludeEvent) :
    printer.Forwards (printer.handle event) (printer.issued event).toList := by
  cases event with
  | define reset name => exact cmdExcludeObjectDefine_forwards unregistered reset name
  | start commandline name =>
    cases name with
    | none => exact forwards_throw unregistered _
    | some name =>
      apply forwards_exclude unregistered
      dsimp only
      split
      · rfl
      · rfl
  | endObject name =>
    rw [handle, cmdExcludeObjectEnd]
    split
    · exact forwards_exclude unregistered rfl
    · exact forwards_exclude unregistered rfl
  | exclude reset current name => exact cmdExcludeObject_forwards unregistered reset current name
  | g1 command => exact cmdG1_forwards unregistered handles command

/-- Every command returns and registers nothing, and every move goes to the toolhead as it is. -/
theorem processCommand_of_unregistered (event : ExcludeEvent) :
    ∃ after, printer.processCommand event = some after ∧ after.Unregistered ∧
      after.forwarded = printer.forwarded ++ (printer.issued event).toList := by
  rcases ignored : printer.machine.isIgnore with _ | _
  · rcases ready : printer.machine.gcodeMove.isPrinterReady with _ | _
    · have unhandled : printer.handles = false := by rw [handles, ignored, ready]; rfl
      rw [processCommand, ignored, ready, issued_of_not_handles unhandled, Option.toList_none,
        List.append_nil]
      exact resetLastPosition_of_unregistered unregistered
    · have reached : printer.handles := by rw [handles, ignored, ready]; rfl
      rcases handle_forwards unregistered reached event with ⟨result, handled, keeps, moves⟩
      rw [processCommand, ignored, ready, handled]
      rcases result with ⟨_ | _, after⟩ | after
      · rcases resetLastPosition_of_unregistered keeps with ⟨reset, isReset, kept, same⟩
        exact ⟨reset, isReset, kept, same.trans moves⟩
      · exact ⟨_, rfl, keeps, moves⟩
      · exact ⟨after, rfl, keeps, moves⟩
  · have unhandled : printer.handles = false := by rw [handles, ignored]; rfl
    rw [processCommand, ignored, issued_of_not_handles unhandled, Option.toList_none,
      List.append_nil]
    exact ⟨printer, rfl, unregistered, rfl⟩

end

end ExcludePrinter

namespace ExcludeRun

variable {run : ExcludeRun}

theorem run_of_unregistered (unregistered : run.printer.Unregistered) (events : List ExcludeEvent) :
    ∃ after, runEvents step run events = some after ∧ after.printer.Unregistered := by
  induction events generalizing run with
  | nil => exact ⟨run, rfl, unregistered⟩
  | cons event events induction =>
    rcases ExcludePrinter.processCommand_of_unregistered unregistered event with
      ⟨next, processed, keeps, _⟩
    have stepped : run.step event = some ⟨next, run.countPassed next event⟩ := by
      rw [step, processed]
      rfl
    rcases @induction ⟨next, run.countPassed next event⟩ keeps with ⟨after, ran, kept⟩
    exact ⟨after, runEvents_cons_eq_some.mpr ⟨_, stepped, ran⟩, kept⟩

end ExcludeRun

/-- Every sequence of commands is processed, and a move that is issued after it does what is asked
of it exactly if it is not one in an excluded object after five extruding moves. -/
theorem excluded_moves_dropped_iff (machine : Machine) (uninitialised : ExcludeObject)
    (extruder : String) (events : List ExcludeEvent) :
    ∃ run, runEvents ExcludeRun.step (.afterReset machine uninitialised extruder) events =
        some run ∧
      ∀ command newpos, run.printer.issued (.g1 command) = some newpos →
        ∃ after, run.printer.processCommand (.g1 command) = some after ∧
          (run.Obeyed newpos after ↔ ¬(run.CurrentExcluded ∧ 5 ≤ run.passed.getD 0)) := by
  have initially : (ExcludeRun.afterReset machine uninitialised extruder).printer.Unregistered :=
    ⟨rfl, rfl⟩
  rcases ExcludeRun.run_of_unregistered initially events with ⟨run, ran, unregistered⟩
  refine ⟨run, ran, fun command newpos issued => ?_⟩
  rcases ExcludePrinter.processCommand_of_unregistered unregistered (.g1 command) with
    ⟨after, processed, _, moved⟩
  rw [issued] at moved
  refine ⟨after, processed, ?_⟩
  rw [ExcludeRun.Obeyed, moved]
  constructor
  · rintro ⟨dropped, _⟩ ⟨excluded, five⟩
    exact absurd (dropped excluded five) (by simp)
  · intro other
    refine ⟨fun excluded five => absurd ⟨excluded, five⟩ other, fun _ => ?_⟩
    exact ⟨newpos, rfl, rfl, rfl, rfl⟩

/-! ## An excluded object that is printed -/

def printMove (n : ℚ) : ExcludeEvent :=
  .g1 { g1 := { commandline := "", x := some (.number n), y := none, z := none
                e := some (.number n), f := none }
        checks := nozzleChecks true }

def zeroExclude : ExcludeObject where
  nextTransform := none
  lastPositionExtruded := .zero
  lastPositionExcluded := .zero
  lastPosition := .zero
  extrusionOffsets _ := none
  maxPositionExtruded := 0
  maxPositionExcluded := 0
  extruderAdj := 0
  initialExtrusionMoves := 0
  inExcludedRegion := false
  wasExcludedAtStart := false
  currentObject := ""
  objects := []
  excludedObjects := []

def excludedCube : List ExcludeEvent :=
  [.define "" "cube", .start "" (some "cube"), .exclude "" "" "cube",
    printMove 1, printMove 2, printMove 3, printMove 4, printMove 5]

/-- The next move in the excluded object is still forwarded to the toolhead. -/
theorem excluded_cube_is_printed :
    (runEvents ExcludeRun.step (.afterReset originMachine zeroExclude "extruder")
        excludedCube).map (fun run =>
      (run.printer.exclude.currentObject, run.printer.exclude.excludedObjects, run.passed,
        run.printer.forwarded.length)) = some ("CUBE", ["CUBE"], some 5, 5) ∧
    (runEvents ExcludeRun.step (.afterReset originMachine zeroExclude "extruder")
        (excludedCube ++ [printMove 6])).map (fun run => run.printer.forwarded.drop 5) =
      some [⟨6, 0, 0, 6⟩] := by
  decide +kernel

end CentauriCarbon.GCode
