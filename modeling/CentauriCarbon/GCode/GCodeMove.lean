import Mathlib.Data.Rat.Defs
import Mathlib.Data.List.TakeWhile

/-! # G-code moves

`GCodeMove::cmd_G1` updates the position of the G-code from the parameters of a command, one after
the other, and hands it to the toolhead. An exception leaves what was updated before it. Numbers
are read as rationals.
-/

namespace CentauriCarbon.GCode

inductive Axis where
  | x
  | y
  | z
  | e
  deriving DecidableEq

@[ext] structure Position where
  x : ℚ
  y : ℚ
  z : ℚ
  e : ℚ
  deriving DecidableEq

namespace Position

def get (pos : Position) : Axis → ℚ
  | .x => pos.x
  | .y => pos.y
  | .z => pos.z
  | .e => pos.e

def set (pos : Position) (axis : Axis) (v : ℚ) : Position :=
  match axis with
  | .x => { pos with x := v }
  | .y => { pos with y := v }
  | .z => { pos with z := v }
  | .e => { pos with e := v }

def sub (pos other : Position) : Position :=
  ⟨pos.x - other.x, pos.y - other.y, pos.z - other.z, pos.e - other.e⟩

def spaceNormSq (d : Position) : ℚ := d.x * d.x + d.y * d.y + d.z * d.z

end Position

/-- The value of a parameter; `std::stod` throws if it is malformed. -/
inductive Param where
  | number (v : ℚ)
  | malformed

structure G1 where
  commandline : String
  x : Option Param
  y : Option Param
  z : Option Param
  e : Option Param
  f : Option Param

inductive GCodeError where
  | command (text : String)
  | internal

structure GCodeMove where
  isPrinterReady : Bool
  absoluteCoord : Bool
  absoluteExtrude : Bool
  basePosition : Position
  lastPosition : Position
  speed : ℚ
  speedFactor : ℚ
  extrudeFactor : ℚ

namespace GCodeMove

variable (move : GCodeMove)

def isRelative : Axis → Bool
  | .x | .y | .z => !move.absoluteCoord
  | .e => !move.absoluteCoord || !move.absoluteExtrude

def factor : Axis → ℚ
  | .x | .y | .z => 1
  | .e => move.extrudeFactor

def setAxis (axis : Axis) (v : ℚ) : GCodeMove :=
  let v := v * move.factor axis
  { move with
    lastPosition := move.lastPosition.set axis
      (if move.isRelative axis then move.lastPosition.get axis + v
      else v + move.basePosition.get axis) }

/-- The parameter of an axis is read; an exception comes with the state at that time. -/
def readAxis : Axis × Option Param → Except (GCodeError × GCodeMove) GCodeMove
  | (_, none) => .ok move
  | (_, some .malformed) => .error (.internal, move)
  | (axis, some (.number v)) => .ok (move.setAxis axis v)

def readSpeed (g1 : G1) : Except (GCodeError × GCodeMove) GCodeMove :=
  match g1.f with
  | none => .ok move
  | some .malformed => .error (.internal, move)
  | some (.number gcodeSpeed) =>
    if gcodeSpeed ≤ 0 then
      .error (.command ("Invalid speed in '" ++ g1.commandline ++ "'"), move)
    else .ok { move with speed := gcodeSpeed * move.speedFactor }

end GCodeMove

def G1.axes (g1 : G1) : List (Axis × Option Param) :=
  [(.x, g1.x), (.y, g1.y), (.z, g1.z), (.e, g1.e)]

def GCodeMove.readParameters (move : GCodeMove) (g1 : G1) :
    Except (GCodeError × GCodeMove) GCodeMove :=
  match g1.axes.foldlM GCodeMove.readAxis move with
  | .error thrown => .error thrown
  | .ok move => move.readSpeed g1

def isReadable : Axis × Option Param → Bool
  | (_, some .malformed) => false
  | (_, some (.number _)) => true
  | (_, none) => true

def GCodeMove.applyAxis (move : GCodeMove) : Axis × Option Param → GCodeMove
  | (axis, some (.number v)) => move.setAxis axis v
  | (_, some .malformed) => move
  | (_, none) => move

def G1.target (g1 : G1) (move : GCodeMove) : Position :=
  ((g1.axes.takeWhile isReadable).foldl GCodeMove.applyAxis move).lastPosition

namespace GCodeMove

def SameModes (move other : GCodeMove) : Prop :=
  other = { move with lastPosition := other.lastPosition }

variable (move : GCodeMove) (params : List (Axis × Option Param))

theorem foldl_applyAxis_sameModes : move.SameModes (params.foldl applyAxis move) := by
  induction params generalizing move with
  | nil => rfl
  | cons param params induction =>
    have first : move.SameModes (move.applyAxis param) := by
      rcases param with ⟨axis, _ | _ | _⟩ <;> rfl
    have rest := induction (move.applyAxis param)
    rw [SameModes] at first rest ⊢
    rw [List.foldl_cons, rest, first]

theorem foldlM_readAxis : params.foldlM readAxis move =
      if params.all isReadable then .ok (params.foldl applyAxis move)
      else .error (.internal, (params.takeWhile isReadable).foldl applyAxis move) := by
  induction params generalizing move with
  | nil => rfl
  | cons param params induction =>
    rcases param with ⟨axis, _ | v | _⟩
    · exact induction move
    · exact induction (move.setAxis axis v)
    · rfl

/-- All parameters of axes are numbers, or there is an exception on the way. -/
theorem readAxes_eq (g1 : G1) : g1.axes.foldlM readAxis move =
      if g1.axes.all isReadable then .ok { move with lastPosition := g1.target move }
      else .error (.internal, { move with lastPosition := g1.target move }) := by
  have same := move.foldl_applyAxis_sameModes (g1.axes.takeWhile isReadable)
  rw [foldlM_readAxis]
  split
  next all =>
    rw [List.takeWhile_eq_self_iff.mpr (List.all_eq_true.mp all)] at same
    rw [G1.target, List.takeWhile_eq_self_iff.mpr (List.all_eq_true.mp all), ← same]
  · rw [G1.target, ← same]

end GCodeMove

end CentauriCarbon.GCode
