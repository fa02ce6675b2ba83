import CentauriCarbon.Foundation.EventRun
import CentauriCarbon.GCode.ToolheadMove

/-! # The positions of the G-code and of the toolhead

`GCodeMove` updates its last position before the toolhead checks the move. What happens to a move
that is not made decides whether the two positions agree afterwards: only a `CommandError` resets
the last position.
-/

namespace CentauriCarbon.GCode

structure Machine where
  gcodeMove : GCodeMove
  commandedPos : Position
  isIgnore : Bool

structure MoveCommand where
  g1 : G1
  checks : MoveChecks

namespace Machine

variable (machine : Machine) (command : MoveCommand)

/-- `GCodeMove::reset_last_position`, with no transform between it and the toolhead. -/
def resetLastPosition : Machine :=
  if machine.gcodeMove.isPrinterReady then
    { machine with gcodeMove :=
        { machine.gcodeMove with lastPosition := machine.commandedPos } }
  else machine

/-- `GCodeMove::cmd_G1`; an exception comes with the state at that time. -/
def cmdG1 : Except (GCodeError × Machine) Machine :=
  match machine.gcodeMove.readParameters command.g1 with
  | .error (error, gcodeMove) => .error (error, { machine with gcodeMove })
  | .ok gcodeMove =>
    match toolheadMove command.checks machine.commandedPos gcodeMove.lastPosition with
    | .error text => .error (.command text, { machine with gcodeMove })
    | .ok commandedPos => .ok { machine with gcodeMove, commandedPos }

def invokeShutdown : Machine :=
  { machine with gcodeMove := { machine.gcodeMove with isPrinterReady := false } }

/-- `process_commands` on one `G0` or `G1` command. Their handlers are registered while the
printer is ready; otherwise `cmd_default` throws a `CommandError`. -/
def processCommand : Machine :=
  if machine.isIgnore then machine
  else if !machine.gcodeMove.isPrinterReady then machine.resetLastPosition
  else
    match machine.cmdG1 command with
    | .ok machine => machine
    | .error (.command _, machine) => machine.resetLastPosition
    | .error (.internal, machine) => machine.invokeShutdown

def step : Option Machine := some (machine.processCommand command)

def ready (gcodeMove : GCodeMove) (commandedPos : Position) (isIgnore : Bool) : Machine where
  gcodeMove := { gcodeMove with isPrinterReady := true, lastPosition := commandedPos }
  commandedPos
  isIgnore

def Synced : Prop := machine.gcodeMove.lastPosition = machine.commandedPos

end Machine

def G1.IsReadable (g1 : G1) : Prop := g1.axes.all isReadable = true ∧ g1.f ≠ some .malformed

def G1.HasInvalidSpeed (g1 : G1) : Prop := ∃ v, g1.f = some (.number v) ∧ v ≤ 0

namespace Machine

def move (machine : Machine) (command : MoveCommand) : Move :=
  Move.new machine.commandedPos (command.g1.target machine.gcodeMove)

/-- A command that is handled names the commanded position, or it can be read and is refused for
its speed or by the kinematics, or its move is made as a whole. -/
def KeepsTogether (machine : Machine) (command : MoveCommand) : Prop :=
  machine.isIgnore = false → machine.gcodeMove.isPrinterReady = true →
    command.g1.target machine.gcodeMove = machine.commandedPos ∨
      command.g1.IsReadable ∧
        (command.g1.HasInvalidSpeed ∨ (machine.move command).Refused command.checks ∨
          (machine.move command).IsWhole ∧ (machine.move command).Extrudes command.checks)

variable {machine : Machine}

theorem synced_resetLastPosition (ready : machine.gcodeMove.isPrinterReady) :
    machine.resetLastPosition.Synced := by
  rw [resetLastPosition, if_pos ready]
  rfl

end Machine

/-- The parameters are read up to the named position; a malformed one throws on the way. -/
theorem GCodeMove.readParameters_cases (gcodeMove : GCodeMove) (g1 : G1) :
    let named := { gcodeMove with lastPosition := g1.target gcodeMove }
    ¬g1.IsReadable ∧ gcodeMove.readParameters g1 = .error (.internal, named) ∨
      g1.IsReadable ∧
        (g1.HasInvalidSpeed ∧
            (∃ text, gcodeMove.readParameters g1 = .error (.command text, named)) ∨
          ¬g1.HasInvalidSpeed ∧
            ∃ speed, gcodeMove.readParameters g1 = .ok { named with speed }) := by
  rw [readParameters, readAxes_eq, G1.IsReadable, G1.HasInvalidSpeed]
  by_cases axes : g1.axes.all isReadable
  · rw [if_pos axes]
    dsimp only
    rw [readSpeed]
    rcases g1.f with _ | v | _
    · exact .inr ⟨⟨axes, by decide⟩, .inr ⟨by simp, _, rfl⟩⟩
    · refine .inr ⟨⟨axes, by simp⟩, ?_⟩
      by_cases invalid : v ≤ 0
      · exact .inl ⟨⟨v, rfl, invalid⟩, _, if_pos invalid⟩
      refine .inr ⟨?_, _, if_neg invalid⟩
      rintro ⟨_, same, nonpos⟩
      cases same
      exact invalid nonpos
    · exact .inl ⟨fun readable => readable.2 rfl, rfl⟩
  · rw [if_neg axes]
    exact .inl ⟨fun readable => axes readable.1, rfl⟩

namespace Machine

variable {machine : Machine}

theorem processCommand_of_not_handled
    (unhandled : ¬(machine.isIgnore = false ∧ machine.gcodeMove.isPrinterReady)) :
    machine.processCommand command = machine := by
  rw [processCommand]
  split
  · rfl
  next handled =>
    have stopped : machine.gcodeMove.isPrinterReady = false := by
      rw [Bool.not_eq_true] at handled
      rw [← Bool.not_eq_true]
      exact fun ready => unhandled ⟨handled, ready⟩
    rw [stopped]
    change machine.resetLastPosition = machine
    rw [resetLastPosition, stopped]
    rfl

theorem synced_processCommand_iff (handled : machine.isIgnore = false)
    (ready : machine.gcodeMove.isPrinterReady) : (machine.processCommand command).Synced ↔
      command.g1.target machine.gcodeMove = machine.commandedPos ∨
        command.g1.IsReadable ∧
          (command.g1.HasInvalidSpeed ∨ (machine.move command).Refused command.checks ∨
            (machine.move command).IsWhole ∧ (machine.move command).Extrudes command.checks) := by
  rw [processCommand, handled, ready, if_neg Bool.false_ne_true, cmdG1]
  rcases machine.gcodeMove.readParameters_cases command.g1 with
    ⟨malformed, read⟩ | ⟨readable, ⟨invalid, text, read⟩ | ⟨valid, speed, read⟩⟩
  · -- The shutdown keeps the last position as far as it was updated.
    rw [read]
    constructor
    · exact .inl
    · rintro (same | ⟨readable, _⟩)
      · exact same
      · exact absurd readable malformed
  · rw [read]
    exact iff_of_true (synced_resetLastPosition ready) (.inr ⟨readable, .inl invalid⟩)
  rw [read]
  dsimp only
  rcases moved : toolheadMove command.checks machine.commandedPos
    (command.g1.target machine.gcodeMove) with text | pos
  · have refused : (machine.move command).Refused command.checks :=
      refused_iff_error.mpr ⟨text, moved⟩
    exact iff_of_true (synced_resetLastPosition ready) (.inr ⟨readable, .inr (.inl refused)⟩)
  have taken : ¬(machine.move command).Refused command.checks := by
    rw [move, refused_iff_error, moved]
    simp
  have arrives := toolheadMove_arrives_iff moved
  tauto

/-- A command keeps the positions together exactly under the condition. -/
theorem keepsTogether_iff (synced : machine.Synced) :
    machine.KeepsTogether command ↔ (machine.processCommand command).Synced := by
  by_cases handled : machine.isIgnore = false ∧ machine.gcodeMove.isPrinterReady
  · rw [synced_processCommand_iff handled.1 handled.2, KeepsTogether]
    exact ⟨fun keeps => keeps handled.1 handled.2, fun keeps _ _ => keeps⟩
  · rw [processCommand_of_not_handled handled]
    exact iff_of_true (fun notIgnored ready => absurd ⟨notIgnored, ready⟩ handled) synced

end Machine

/-- From the time the printer is ready, the positions agree after each of the commands exactly if
each of them meets the condition in the state in which it is handled. -/
theorem positions_agree_iff (gcodeMove : GCodeMove) (commandedPos : Position) (isIgnore : Bool)
    (commands : List MoveCommand) :
    (∀ done final, done <+: commands →
        runEvents Machine.step (.ready gcodeMove commandedPos isIgnore) done = some final →
        final.Synced) ↔
      RunMeets Machine.step Machine.KeepsTogether (.ready gcodeMove commandedPos isIgnore)
        commands := by
  have initially : (Machine.ready gcodeMove commandedPos isIgnore).Synced := rfl
  refine (runMeets_iff (fun machine command synced => ?_) initially).symm
  rw [Machine.keepsTogether_iff synced, Machine.step]
  constructor
  · rintro kept next stepped
    cases stepped
    exact kept
  · exact fun kept => kept _ rfl

def origin : Position := ⟨0, 0, 0, 0⟩

def originMachine : Machine :=
  .ready { isPrinterReady := true, absoluteCoord := true, absoluteExtrude := true
           basePosition := origin, lastPosition := origin
           speed := 25, speedFactor := 1 / 60, extrudeFactor := 1 } origin false

def nozzleChecks (canExtrude : Bool) : MoveChecks where
  kinematics _ := none
  extruder := .printer
    { canExtrude, maxEDist := 50, maxExtrudeRatio := 1, nozzleDiameter := 2 / 5 }

def coldMove : MoveCommand where
  g1 := { commandline := "G1 X10 E5", x := some (.number 10), y := none, z := none
          e := some (.number 5), f := none }
  checks := nozzleChecks false

def nextMove : MoveCommand where
  g1 := { commandline := "G1 Y10", x := none, y := some (.number 10), z := none
          e := none, f := none }
  checks := nozzleChecks true

/-- With a cold nozzle `G1 X10 E5` is dropped without an error, and `G1 Y10` makes up for it. -/
theorem dropped_move_is_made_later :
    (runEvents Machine.step originMachine [coldMove]).map
        (fun machine => (machine.gcodeMove.lastPosition, machine.commandedPos)) =
      some (⟨10, 0, 0, 5⟩, origin) ∧
    (runEvents Machine.step originMachine [coldMove, nextMove]).map (·.commandedPos) =
      some ⟨10, 10, 0, 5⟩ := by
  decide +kernel

end CentauriCarbon.GCode
