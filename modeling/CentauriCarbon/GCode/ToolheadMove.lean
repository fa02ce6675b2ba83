import CentauriCarbon.GCode.GCodeMove
import Mathlib.Algebra.Order.Ring.Rat

/-! # Moves of the toolhead

`ToolHead::move` lets the kinematics and the extruder check a move before it is queued. What they
throw ends differently: an exception of the kinematics goes to the caller, one of the extruder is
caught and the move is dropped.
-/

namespace CentauriCarbon.GCode

structure Move where
  startPos : Position
  endPos : Position
  axesD : Position
  isKinematicMove : Bool
  /-- The square of `move_d`. -/
  moveDSq : ℚ

/-- A move of less than `0.000000001` in space is one of the extruder only. -/
def Move.new (startPos endPos : Position) : Move :=
  let axesD := endPos.sub startPos
  if axesD.spaceNormSq < (1 / 1000000000) * (1 / 1000000000) then
    { startPos
      endPos := { startPos with e := endPos.e }
      axesD
      isKinematicMove := false
      moveDSq := axesD.e * axesD.e }
  else
    { startPos, endPos, axesD, isKinematicMove := true, moveDSq := axesD.spaceNormSq }

/-- `axes_r[3] > ratio` for a positive ratio; `axes_r[3]` is `axes_d[3] / move_d`. -/
def Move.extrudesAbove (move : Move) (ratio : ℚ) : Bool :=
  0 < move.axesD.e && ratio * ratio * move.moveDSq < move.axesD.e * move.axesD.e

structure PrinterExtruder where
  canExtrude : Bool
  maxEDist : ℚ
  maxExtrudeRatio : ℚ
  nozzleDiameter : ℚ

inductive ExtruderError where
  | belowMinTemp
  | tooLong
  | exceedsMaximum
  | noExtruder

inductive Extruder where
  | printer (extruder : PrinterExtruder)
  | dummy

def PrinterExtruder.checkMove (extruder : PrinterExtruder) (move : Move) : Option ExtruderError :=
  if !extruder.canExtrude then some .belowMinTemp
  else if (move.axesD.x = 0 ∧ move.axesD.y = 0) ∨ move.axesD.e < 0 then
    if |move.axesD.e| > extruder.maxEDist then some .tooLong else none
  else if move.extrudesAbove extruder.maxExtrudeRatio then
    if move.axesD.e ≤ extruder.nozzleDiameter * extruder.maxExtrudeRatio then none
    else some .exceedsMaximum
  else none

def Extruder.checkMove (extruder : Extruder) (move : Move) : Option ExtruderError :=
  match extruder with
  | .printer extruder => extruder.checkMove move
  | .dummy => some .noExtruder

/-- What decides about a move at the time it is made: the kinematics, which throws the given
error, and the extruder. -/
structure MoveChecks where
  kinematics : Move → Option String
  extruder : Extruder

def toolheadMove (checks : MoveChecks) (commandedPos newpos : Position) : Except String Position :=
  let move := Move.new commandedPos newpos
  if move.moveDSq = 0 then .ok commandedPos
  else
    match if move.isKinematicMove then checks.kinematics move else none with
    | some text => .error text
    | none =>
      if move.axesD.e ≠ 0 then
        match checks.extruder.checkMove move with
        | some _ => .ok commandedPos
        | none => .ok move.endPos
      else .ok move.endPos

namespace Position

variable {pos other : Position}

/-- There is no displacement in space between positions that agree in `x`, `y` and `z`. -/
theorem spaceNormSq_sub_eq_zero_iff :
    (pos.sub other).spaceNormSq = 0 ↔ pos.x = other.x ∧ pos.y = other.y ∧ pos.z = other.z := by
  rw [sub, spaceNormSq]
  rw [add_eq_zero_iff_of_nonneg (add_nonneg (mul_self_nonneg _) (mul_self_nonneg _))
    (mul_self_nonneg _), add_eq_zero_iff_of_nonneg (mul_self_nonneg _) (mul_self_nonneg _),
    mul_self_eq_zero, mul_self_eq_zero, mul_self_eq_zero, sub_eq_zero, sub_eq_zero, sub_eq_zero,
    and_assoc]

theorem eq_iff : pos = other ↔ (pos.sub other).spaceNormSq = 0 ∧ (pos.sub other).e = 0 := by
  rw [spaceNormSq_sub_eq_zero_iff, sub, sub_eq_zero, Position.ext_iff]
  tauto

end Position

namespace Move

def Refused (move : Move) (checks : MoveChecks) : Prop :=
  move.isKinematicMove = true ∧ (checks.kinematics move).isSome = true

def Extrudes (move : Move) (checks : MoveChecks) : Prop :=
  move.axesD.e = 0 ∨ checks.extruder.checkMove move = none

def IsWhole (move : Move) : Prop := move.isKinematicMove = true ∨ move.axesD.spaceNormSq = 0

variable {startPos endPos : Position}

theorem new_cases (startPos endPos : Position) : new startPos endPos =
        { startPos
          endPos := { startPos with e := endPos.e }
          axesD := endPos.sub startPos
          isKinematicMove := false
          moveDSq := (endPos.sub startPos).e * (endPos.sub startPos).e } ∨
      (endPos.sub startPos).spaceNormSq ≠ 0 ∧ new startPos endPos =
        { startPos
          endPos
          axesD := endPos.sub startPos
          isKinematicMove := true
          moveDSq := (endPos.sub startPos).spaceNormSq } := by
  by_cases near : (endPos.sub startPos).spaceNormSq < (1 / 1000000000) * (1 / 1000000000)
  · exact .inl (if_pos near)
  · refine .inr ⟨fun zero => near ?_, if_neg near⟩
    rw [zero]
    decide +kernel

/-- A move without length is dropped; it does not change the position. -/
theorem eq_of_moveDSq_eq_zero (zero : (new startPos endPos).moveDSq = 0) :
    (new startPos endPos).isKinematicMove = false ∧ (new startPos endPos).axesD.e = 0 ∧
      (endPos = startPos ↔ (new startPos endPos).IsWhole) := by
  rw [IsWhole, Position.eq_iff]
  rcases new_cases startPos endPos with near | ⟨length, far⟩
  · rw [near] at zero ⊢
    have none := mul_self_eq_zero.mp zero
    tauto
  · rw [far] at zero
    exact absurd zero length

theorem eq_endPos_iff : endPos = (new startPos endPos).endPos ↔ (new startPos endPos).IsWhole := by
  rw [IsWhole]
  rcases new_cases startPos endPos with near | ⟨length, far⟩
  · rw [near, Position.spaceNormSq_sub_eq_zero_iff, Position.ext_iff]
    tauto
  · rw [far]
    tauto

end Move

variable (checks : MoveChecks) (commandedPos newpos : Position)

theorem toolheadMove_cases :
    let move := Move.new commandedPos newpos
    (move.Refused checks ∧ ∃ text, toolheadMove checks commandedPos newpos = .error text) ∨
      ¬move.Refused checks ∧
        (move.Extrudes checks ∧ toolheadMove checks commandedPos newpos = .ok move.endPos ∨
          (move.moveDSq = 0 ∨ ¬move.Extrudes checks) ∧
            toolheadMove checks commandedPos newpos = .ok commandedPos) := by
  intro move
  by_cases length : move.moveDSq = 0
  · have near : move.isKinematicMove = false := (Move.eq_of_moveDSq_eq_zero length).1
    have taken : ¬move.Refused checks := by
      rw [Move.Refused, near]
      tauto
    exact .inr ⟨taken, .inr ⟨.inl length, if_pos length⟩⟩
  have checked : toolheadMove checks commandedPos newpos = _ := if_neg length
  rw [checked]
  by_cases refused : move.Refused checks
  · rcases Option.isSome_iff_exists.mp refused.2 with ⟨text, thrown⟩
    refine .inl ⟨refused, text, ?_⟩
    rw [if_pos refused.1, thrown]
  refine .inr ⟨refused, ?_⟩
  have silent : (if move.isKinematicMove then checks.kinematics move else none) = none := by
    split
    next kinematic =>
      rw [← Option.not_isSome_iff_eq_none]
      exact fun isSome => refused ⟨kinematic, isSome⟩
    · rfl
  rw [silent]
  by_cases still : move.axesD.e = 0
  · exact .inl ⟨.inl still, if_neg (not_not_intro still)⟩
  rw [if_pos still]
  rcases checked : checks.extruder.checkMove move with _ | error
  · exact .inl ⟨.inr checked, rfl⟩
  · refine .inr ⟨.inr ?_, rfl⟩
    rw [Move.Extrudes, checked]
    tauto

variable {checks commandedPos newpos}

theorem refused_iff_error :
    (Move.new commandedPos newpos).Refused checks ↔
      ∃ text, toolheadMove checks commandedPos newpos = .error text := by
  rcases toolheadMove_cases checks commandedPos newpos with
    ⟨refused, error⟩ | ⟨taken, ⟨_, ends⟩ | ⟨_, ends⟩⟩
  · exact iff_of_true refused error
  · rw [ends]
    exact iff_of_false taken (by simp)
  · rw [ends]
    exact iff_of_false taken (by simp)

/-- A move that is not refused arrives if it is made as a whole, or if it ends where it began. -/
theorem toolheadMove_arrives_iff (moved : toolheadMove checks commandedPos newpos = .ok pos) :
    newpos = pos ↔ newpos = commandedPos ∨
      (Move.new commandedPos newpos).IsWhole ∧ (Move.new commandedPos newpos).Extrudes checks := by
  rcases toolheadMove_cases checks commandedPos newpos with
    ⟨_, text, error⟩ | ⟨_, ⟨extrudes, ends⟩ | ⟨dropped, ends⟩⟩
  · rw [error] at moved
    cases moved
  · rw [ends] at moved
    cases moved
    rw [Move.eq_endPos_iff]
    constructor
    · exact fun whole => .inr ⟨whole, extrudes⟩
    · rintro (same | ⟨whole, _⟩)
      · rcases Move.new_cases commandedPos newpos with near | ⟨length, _⟩
        · rw [Move.IsWhole, near]
          exact .inr (Position.eq_iff.mp same).1
        · exact absurd (Position.eq_iff.mp same).1 length
      · exact whole
  · rw [ends] at moved
    cases moved
    rcases dropped with length | refused
    · have same := (Move.eq_of_moveDSq_eq_zero length).2.2
      tauto
    · tauto

end CentauriCarbon.GCode
