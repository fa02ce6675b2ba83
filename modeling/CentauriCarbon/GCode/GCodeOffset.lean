import CentauriCarbon.GCode.GCodeMove
import Mathlib.Algebra.Ring.Rat

/-! # Offsets of the G-code

`SET_GCODE_OFFSET` sets the offsets of the axes that it names. For Z the code also keeps the last
value that was given, `z_offset`. `Z_ADJUST` does not change it, and a command that does not name Z
sets the offset back to it.
-/

namespace CentauriCarbon.GCode

structure OffsetCommand where
  /-- `X`, `Y`, `Z` and `E`. -/
  axis : Axis → Option ℚ
  /-- `X_ADJUST` and so on. -/
  adjust : Axis → Option ℚ
  bedRoughness : Option ℚ
  move : Bool

def OffsetCommand.Names (command : OffsetCommand) (axis : Axis) : Prop :=
  (command.axis axis).isSome ∨ (command.adjust axis).isSome ∨
    axis = .z ∧ command.bedRoughness.isSome

structure GCodeOffsets where
  basePosition : Axis → ℚ
  homingPosition : Axis → ℚ
  lastPosition : Axis → ℚ
  zOffset : ℚ
  bedRoughnessOffset : ℚ

namespace GCodeOffsets

def new : GCodeOffsets := ⟨0, 0, 0, 0, 0⟩

variable (state : GCodeOffsets) (command : OffsetCommand)

/-- The offset that a pass of the loop over the axes finds, or the old one if it goes on to the next
axis. No pass reads what another one writes. -/
def offset (axis : Axis) : ℚ :=
  match command.axis axis, command.adjust axis with
  | some offset, _ => if axis = .z then offset + state.bedRoughnessOffset else offset
  | none, some adjust => adjust + state.homingPosition axis
  | none, none =>
    if axis = .z then state.zOffset + command.bedRoughness.getD 0 else state.homingPosition axis

def moveDelta (axis : Axis) : ℚ := state.offset command axis - state.homingPosition axis

def cmdSetGcodeOffset : GCodeOffsets where
  basePosition axis := state.basePosition axis + state.moveDelta command axis
  homingPosition := state.offset command
  lastPosition axis :=
    if command.move then state.lastPosition axis + state.moveDelta command axis
    else state.lastPosition axis
  zOffset := (command.axis .z).getD state.zOffset
  bedRoughnessOffset :=
    match command.axis .z, command.adjust .z with
    | none, none => command.bedRoughness.getD 0
    | _, _ => state.bedRoughnessOffset

/-- An axis that is not named stays as it is, and the others get the offset that is asked for. -/
structure Sets (next : GCodeOffsets) : Prop where
  unnamed : ∀ axis, ¬command.Names axis →
    next.homingPosition axis = state.homingPosition axis ∧
      next.basePosition axis = state.basePosition axis ∧
      next.lastPosition axis = state.lastPosition axis
  value : ∀ axis value, command.axis axis = some value →
    next.homingPosition axis = value + if axis = .z then state.bedRoughnessOffset else 0
  adjusted : ∀ axis value, command.axis axis = none → command.adjust axis = some value →
    next.homingPosition axis = state.homingPosition axis + value
  shifted : ∀ axis, next.basePosition axis =
    state.basePosition axis + (next.homingPosition axis - state.homingPosition axis)

variable {command}

theorem offset_of_unnamed (unnamed : ¬command.Names axis) :
    state.offset command axis = if axis = .z then state.zOffset else state.homingPosition axis := by
  simp only [OffsetCommand.Names, not_or, not_and, Option.not_isSome_iff_eq_none] at unnamed
  rw [offset, unnamed.1, unnamed.2.1]
  dsimp only
  split
  next isZ => rw [unnamed.2.2 isZ, Option.getD_none, add_zero]
  · rfl

/-- After every history of the command, a further one sets the offsets as it should exactly if it
names Z, or the offset of Z is the last value that was given for it. -/
theorem offsets_set_iff (start : GCodeOffsets) (history : List OffsetCommand)
    (command : OffsetCommand) : let state := history.foldl cmdSetGcodeOffset start
    state.Sets command (state.cmdSetGcodeOffset command) ↔
      (¬command.Names .z → state.zOffset = state.homingPosition .z) := by
  intro state
  constructor
  · intro sets unnamed
    rw [← (sets.unnamed .z unnamed).1]
    exact (state.offset_of_unnamed unnamed).symm
  intro given
  refine ⟨?_, ?_, ?_, fun axis => rfl⟩
  · intro axis unnamed
    have same : state.offset command axis = state.homingPosition axis := by
      rw [state.offset_of_unnamed unnamed]
      split
      next isZ =>
        subst isZ
        exact given unnamed
      · rfl
    have noDelta : state.moveDelta command axis = 0 := sub_eq_zero.mpr same
    simp [cmdSetGcodeOffset, same, noDelta]
  · intro axis value isValue
    simp only [cmdSetGcodeOffset, offset, isValue]
    split
    · rfl
    · rw [add_zero]
  · intro axis value none isValue
    simp only [cmdSetGcodeOffset, offset, none, isValue]
    exact add_comm _ _

/-- After a baby-step of Z, setting the offset of X takes the baby-step back. -/
theorem baby_step_lost :
    let adjusted := new.cmdSetGcodeOffset
      ⟨fun _ => none, fun axis => if axis = .z then some (1 / 20) else none, none, true⟩
    let command : OffsetCommand :=
      ⟨fun axis => if axis = .x then some 1 else none, fun _ => none, none, true⟩
    adjusted.homingPosition .z = 1 / 20 ∧ ¬command.Names .z ∧
      (adjusted.cmdSetGcodeOffset command).homingPosition .z = 0 ∧
      (adjusted.cmdSetGcodeOffset command).lastPosition .z = 0 := by
  simp [new, cmdSetGcodeOffset, offset, moveDelta, OffsetCommand.Names]

end GCodeOffsets

end CentauriCarbon.GCode
