import CentauriCarbon.GCode.GCodeMove
import Mathlib.Algebra.Order.Ring.Rat
import Mathlib.Data.List.Sort

/-! # Excluded objects

`ExcludeObject` is a transform between the G-code and the toolhead. It drops the moves of excluded
objects and keeps track of what was dropped, so that the moves behind them start where the toolhead
is. The offsets are read as a copy; what is written to the copy is lost.
-/

namespace CentauriCarbon.GCode

open Function

inductive Transform where
  | toolhead
  | excludeObject

/-- The state of `ExcludeObject`. Of the definitions of objects only the names matter. -/
structure ExcludeObject where
  /-- `next_transform`, if it is not the null pointer. -/
  nextTransform : Option Transform
  lastPositionExtruded : Position
  lastPositionExcluded : Position
  lastPosition : Position
  /-- By the name of the extruder. -/
  extrusionOffsets : String → Option Position
  maxPositionExtruded : ℚ
  maxPositionExcluded : ℚ
  extruderAdj : ℚ
  initialExtrusionMoves : ℤ
  inExcludedRegion : Bool
  wasExcludedAtStart : Bool
  /-- Empty outside of objects. -/
  currentObject : String
  objects : List String
  excludedObjects : List String

def Position.zero : Position := ⟨0, 0, 0, 0⟩

def Position.add (pos other : Position) : Position :=
  ⟨pos.x + other.x, pos.y + other.y, pos.z + other.z, pos.e + other.e⟩

def areEqual (a b : ℚ) : Bool :=
  |a - b| < 1 / 1000000000

def clearOffset (offset : Position) (extruderAdj : ℚ) (newpos excluded : Position) : Position × ℚ :=
  if (offset.x ≠ 0 ∨ offset.y ≠ 0) ∧ !areEqual newpos.x excluded.x ∨
      !areEqual newpos.y excluded.y then
    (⟨0, 0, 0, offset.e + extruderAdj⟩, 0)
  else (offset, extruderAdj)

def clearOffsetZ (offset newpos excluded : Position) : Position :=
  if !areEqual offset.z 0 && !areEqual newpos.z excluded.z then { offset with z := 0 }
  else offset

def adjustOffset (offset : Position) (extruderAdj : ℚ) (newpos excluded : Position) :
    Position × ℚ :=
  let (offset, extruderAdj) := clearOffset offset extruderAdj newpos excluded
  let offset := clearOffsetZ offset newpos excluded
  if !areEqual extruderAdj 0 && !areEqual newpos.e excluded.e then
    ({ offset with e := offset.e + extruderAdj }, 0)
  else (offset, extruderAdj)

namespace ExcludeObject

variable (exclude : ExcludeObject) (extruder : String) (newpos : Position)

def getExtrusionOffsets : Position × ExcludeObject :=
  match exclude.extrusionOffsets extruder with
  | some offset => (offset, exclude)
  | none => (.zero, { exclude with
      extrusionOffsets := update exclude.extrusionOffsets extruder (some .zero) })

def getPosition (pos : Position) : Position × ExcludeObject :=
  let (offset, exclude) := exclude.getExtrusionOffsets extruder
  (pos.add offset, { exclude with lastPosition := pos.add offset })

def normalMove : ExcludeObject × Position :=
  let (offset, exclude) := exclude.getExtrusionOffsets extruder
  let initialExtrusionMoves :=
    if 0 < exclude.initialExtrusionMoves ∧ exclude.lastPosition.e ≠ newpos.e then
      exclude.initialExtrusionMoves - 1
    else exclude.initialExtrusionMoves
  let (offset, extruderAdj) :=
    adjustOffset offset exclude.extruderAdj newpos exclude.lastPositionExcluded
  ({ exclude with
      initialExtrusionMoves
      lastPosition := newpos
      lastPositionExtruded := newpos
      maxPositionExtruded :=
        if exclude.maxPositionExtruded > newpos.e then exclude.maxPositionExtruded else newpos.e
      extruderAdj }, newpos.sub offset)

/-- `_ignore_move`; the offsets that it computes are not stored. -/
def ignoreMove : ExcludeObject :=
  let (_, exclude) := exclude.getExtrusionOffsets extruder
  { exclude with
    lastPosition := newpos
    lastPositionExcluded := newpos
    maxPositionExcluded :=
      if exclude.maxPositionExcluded > newpos.e then exclude.maxPositionExcluded else newpos.e }

def moveIntoExcludedRegion : ExcludeObject :=
  { exclude with inExcludedRegion := true }.ignoreMove extruder newpos

def moveFromExcludedRegion : ExcludeObject × Position :=
  { exclude with
    inExcludedRegion := false
    extruderAdj := exclude.maxPositionExcluded - exclude.lastPositionExcluded.e -
      (exclude.maxPositionExtruded - exclude.lastPositionExtruded.e) }.normalMove extruder newpos

def testInExcludedRegion : Bool :=
  exclude.currentObject ∈ exclude.excludedObjects && exclude.initialExtrusionMoves == 0

/-- `ExcludeObject::move`: what the next transform is given, if anything. -/
def move : ExcludeObject × Option Position :=
  if exclude.testInExcludedRegion then
    if exclude.inExcludedRegion then (exclude.ignoreMove extruder newpos, none)
    else (exclude.moveIntoExcludedRegion extruder newpos, none)
  else
    let (exclude, target) :=
      if exclude.inExcludedRegion then exclude.moveFromExcludedRegion extruder newpos
      else exclude.normalMove extruder newpos
    (exclude, some target)

def resetState : ExcludeObject :=
  { exclude with
    objects := []
    excludedObjects := []
    currentObject := ""
    inExcludedRegion := false }

def addObjectDefinition (name : String) : ExcludeObject :=
  { exclude with objects := (exclude.objects ++ [name]).insertionSort (· ≤ ·) }

def addExcluded (name : String) : ExcludeObject :=
  if name ∈ exclude.excludedObjects then exclude
  else { exclude with excludedObjects := (exclude.excludedObjects ++ [name]).insertionSort (· ≤ ·) }

def unexcludeObject (name : String) : ExcludeObject :=
  if name ∈ exclude.excludedObjects then
    { exclude with excludedObjects := (exclude.excludedObjects.erase name).insertionSort (· ≤ ·) }
  else exclude

end ExcludeObject

def Position.SamePlace (pos other : Position) : Prop :=
  pos.x = other.x ∧ pos.y = other.y ∧ pos.z = other.z

end CentauriCarbon.GCode
