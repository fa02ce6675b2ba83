import Mathlib.Algebra.Order.Field.Rat

/-! # The look-ahead queue of the tool head

`Move` and `LookAheadQueue` of the tool head plan the speed of a stretch of moves.
A squared velocity is an exact rational here. What the source computes with a square
root (the length of a move, the half angles of a corner) and the limit the extruder sets
for a junction enter as arguments.
-/

namespace CentauriCarbon.Motion

structure Junction where
  startV2 : ℚ
  cruiseV2 : ℚ
  endV2 : ℚ
  deriving DecidableEq

/-- A queued move. `junctions` are the `set_junction` calls made on it so far. -/
structure Move where
  isKinematicMove : Bool
  moveD : ℚ
  accel : ℚ
  junctionDeviation : ℚ
  minMoveT : ℚ
  maxStartV2 : ℚ
  maxCruiseV2 : ℚ
  deltaV2 : ℚ
  maxSmoothedV2 : ℚ
  smoothDeltaV2 : ℚ
  nextJunctionV2 : ℚ
  junctions : List Junction

structure ToolHead where
  maxVelocity : ℚ
  maxAccel : ℚ
  maxAccelToDecel : ℚ
  junctionDeviation : ℚ

/-- The constructor, for a move of `travelD` in space and `extrudeD` of filament. -/
def Move.make (toolhead : ToolHead) (travelD extrudeD speed : ℚ) : Move :=
  let kinematic := !decide (travelD < 1 / 1000000000)
  let moveD := if kinematic then travelD else |extrudeD|
  let accel := if kinematic then toolhead.maxAccel else 999999999 / 10
  let velocity := if kinematic then min speed toolhead.maxVelocity else speed
  { isKinematicMove := kinematic
    moveD
    accel
    junctionDeviation := toolhead.junctionDeviation
    minMoveT := moveD / velocity
    maxStartV2 := 0
    maxCruiseV2 := velocity * velocity
    deltaV2 := 2 * moveD * accel
    maxSmoothedV2 := 0
    smoothDeltaV2 := 2 * moveD * toolhead.maxAccelToDecel
    nextJunctionV2 := 9999999999 / 10
    junctions := [] }

def Move.limitNextJunctionSpeed (move : Move) (speed : ℚ) : Move :=
  { move with nextJunctionV2 := min move.nextJunctionV2 (speed * speed) }

/-- What `calc_junction` learns about a junction from elsewhere: the limit of the
extruder and the half angle between the two moves. -/
structure Corner where
  extruderV2 : ℚ
  sinThetaD2 : ℚ
  cosThetaD2 : ℚ

def Move.cornerV2 (move prevMove : Move) (corner : Corner) (maxStartV2 : ℚ) : ℚ :=
  let oneMinusSinThetaD2 := 1 - corner.sinThetaD2
  if oneMinusSinThetaD2 > 0 ∧ corner.cosThetaD2 > 0 then
    let rJd := corner.sinThetaD2 / oneMinusSinThetaD2
    let moveJdV2 := rJd * move.junctionDeviation * move.accel
    let pmoveJdV2 := rJd * prevMove.junctionDeviation * prevMove.accel
    let quarterTanThetaD2 := 1 / 4 * corner.sinThetaD2 / corner.cosThetaD2
    let moveCentripetalV2 := move.deltaV2 * quarterTanThetaD2
    let pmoveCentripetalV2 := prevMove.deltaV2 * quarterTanThetaD2
    min maxStartV2 (min moveJdV2 (min pmoveJdV2 (min moveCentripetalV2 pmoveCentripetalV2)))
  else
    maxStartV2

def Move.calcJunction (move prevMove : Move) (corner : Corner) : Move :=
  if !move.isKinematicMove || !prevMove.isKinematicMove then
    move
  else
    let maxStartV2 := min corner.extruderV2 (min move.maxCruiseV2
      (min prevMove.maxCruiseV2 (min prevMove.nextJunctionV2
        (prevMove.maxStartV2 + prevMove.deltaV2))))
    let maxStartV2 := move.cornerV2 prevMove corner maxStartV2
    { move with
      maxStartV2
      maxSmoothedV2 := min maxStartV2 (prevMove.maxSmoothedV2 + prevMove.smoothDeltaV2) }

def Move.setJunction (move : Move) (junction : Junction) : Move :=
  { move with junctions := move.junctions ++ [junction] }

structure Speeds where
  nextEndV2 : ℚ
  nextSmoothedV2 : ℚ
  peakCruiseV2 : ℚ

namespace Speeds

variable (speeds : Speeds) (move : Move)

def reachableStartV2 : ℚ := speeds.nextEndV2 + move.deltaV2

def startV2 : ℚ := min move.maxStartV2 (speeds.reachableStartV2 move)

def reachableSmoothedV2 : ℚ := speeds.nextSmoothedV2 + move.smoothDeltaV2

def smoothedV2 : ℚ := min move.maxSmoothedV2 (speeds.reachableSmoothedV2 move)

abbrev Settles : Prop := speeds.smoothedV2 move < speeds.reachableSmoothedV2 move

def newPeakV2 : ℚ :=
  min move.maxCruiseV2 ((speeds.smoothedV2 move + speeds.reachableSmoothedV2 move) / 2)

def cruiseV2 (peakCruiseV2 : ℚ) : ℚ :=
  min ((speeds.startV2 move + speeds.reachableStartV2 move) / 2) (min move.maxCruiseV2 peakCruiseV2)

def junction (peakCruiseV2 : ℚ) : Junction :=
  { startV2 := min (speeds.startV2 move) (speeds.cruiseV2 move peakCruiseV2)
    cruiseV2 := speeds.cruiseV2 move peakCruiseV2
    endV2 := min speeds.nextEndV2 (speeds.cruiseV2 move peakCruiseV2) }

end Speeds

structure Delayed where
  index : ℕ
  startV2 : ℚ
  endV2 : ℚ

/-- The local variables of `flush`. `calls` are the `set_junction` calls made so far, each
with the place in the queue of the move it is made on. -/
structure Pass extends Speeds where
  updateFlushCount : Bool
  flushCount : ℕ
  delayed : List Delayed
  calls : List (ℕ × Junction)

def Pass.start (lazy : Bool) (size : ℕ) : Pass :=
  { nextEndV2 := 0
    nextSmoothedV2 := 0
    peakCruiseV2 := 0
    updateFlushCount := lazy
    flushCount := size
    delayed := []
    calls := [] }

def propagate (mcV2 : ℚ) : List Delayed → List (ℕ × Junction)
  | [] => []
  | entry :: entries =>
    let mcV2 := min mcV2 entry.startV2
    (entry.index, ⟨min entry.startV2 mcV2, mcV2, min entry.endV2 mcV2⟩) :: propagate mcV2 entries

variable (pass : Pass)

def Pass.commit (i : ℕ) (calls : List (ℕ × Junction)) : Pass :=
  if !pass.updateFlushCount && decide (i < pass.flushCount) then
    { pass with calls := pass.calls ++ calls }
  else
    pass

/-- Move `i` starts a new peak: a lazy flush may end in front of it, and the delayed moves
learn their cruise speed. -/
def Pass.newPeak (i : ℕ) (peakCruiseV2 : ℚ) : Pass :=
  let found := pass.updateFlushCount && decide (pass.peakCruiseV2 ≠ 0)
  let next := { pass with
    flushCount := if found then i else pass.flushCount
    updateFlushCount := pass.updateFlushCount && !found
    peakCruiseV2 }
  { next.commit i (propagate peakCruiseV2 pass.delayed.reverse) with delayed := [] }

def Pass.settle (i : ℕ) (move : Move) : Pass :=
  let next :=
    if pass.smoothedV2 move + move.smoothDeltaV2 > pass.nextSmoothedV2 ∨
        pass.delayed ≠ [] then
      pass.newPeak i (pass.newPeakV2 move)
    else
      pass
  next.commit i [(i, pass.junction move next.peakCruiseV2)]

def Pass.delay (i : ℕ) (move : Move) : Pass :=
  { pass with delayed := pass.delayed ++ [⟨i, pass.startV2 move, pass.nextEndV2⟩] }

def Pass.step (i : ℕ) (move : Move) : Pass :=
  let next := if pass.Settles move then pass.settle i move else pass.delay i move
  { next with nextEndV2 := pass.startV2 move, nextSmoothedV2 := pass.smoothedV2 move }

/-- The loop of `flush` over the moves from place `i` on, from the last one down. -/
def Pass.ofMoves (lazy : Bool) (size : ℕ) : ℕ → List Move → Pass
  | _, [] => Pass.start lazy size
  | i, move :: moves => (Pass.ofMoves lazy size (i + 1) moves).step i move

def callsOn (calls : List (ℕ × Junction)) (i : ℕ) : List Junction :=
  (calls.filter fun call => decide (call.1 = i)).map Prod.snd

def setJunctions (calls : List (ℕ × Junction)) (queue : List Move) : List Move :=
  queue.mapIdx fun i move => (callsOn calls i).foldl Move.setJunction move

structure LookAheadQueue where
  queue : List Move
  junctionFlush : ℚ

def lookaheadFlushTime : ℚ := 1 / 4

namespace LookAheadQueue

def make : LookAheadQueue := ⟨[], lookaheadFlushTime⟩

variable (lookahead : LookAheadQueue)

/-- `flush`, with the moves it hands to `_process_moves`. -/
def flush (lazy : Bool) : LookAheadQueue × List Move :=
  let pass := Pass.ofMoves lazy lookahead.queue.length 0 lookahead.queue
  let queue := setJunctions pass.calls lookahead.queue
  if pass.updateFlushCount ∨ pass.flushCount = 0 then
    (⟨queue, lookaheadFlushTime⟩, [])
  else
    (⟨queue.drop pass.flushCount, lookaheadFlushTime⟩, queue.take pass.flushCount)

def addMove (move : Move) (corner : Corner) : LookAheadQueue × List Move :=
  match lookahead.queue.getLast? with
  | none => ({ lookahead with queue := [move] }, [])
  | some prevMove =>
    let next : LookAheadQueue :=
      { queue := lookahead.queue ++ [move.calcJunction prevMove corner]
        junctionFlush := lookahead.junctionFlush - move.minMoveT }
    if next.junctionFlush ≤ 0 then next.flush true else (next, [])

def setFlushTime (flushTime : ℚ) : LookAheadQueue :=
  { lookahead with junctionFlush := flushTime }

def limitNextJunctionSpeed (lookahead : LookAheadQueue) (speed : ℚ) : LookAheadQueue :=
  { lookahead with
    queue := lookahead.queue.modifyLast fun move => move.limitNextJunctionSpeed speed }

end LookAheadQueue

inductive LookAheadEvent where
  | addMove (move : Move) (corner : Corner)
  | flush
  | setFlushTime (flushTime : ℚ)
  | limitNextJunctionSpeed (speed : ℚ)

structure Planner where
  lookahead : LookAheadQueue
  processed : List Move

namespace Planner

def make : Planner := ⟨.make, []⟩

def process (planner : Planner) (result : LookAheadQueue × List Move) : Planner :=
  ⟨result.1, planner.processed ++ result.2⟩

def step (planner : Planner) : LookAheadEvent → Planner
  | .addMove move corner => planner.process (planner.lookahead.addMove move corner)
  | .flush => planner.process (planner.lookahead.flush false)
  | .setFlushTime flushTime =>
    { planner with lookahead := planner.lookahead.setFlushTime flushTime }
  | .limitNextJunctionSpeed speed =>
    { planner with lookahead := planner.lookahead.limitNextJunctionSpeed speed }

def run (planner : Planner) (events : List LookAheadEvent) : Planner := events.foldl step planner

end Planner

end CentauriCarbon.Motion
