import CentauriCarbon.GCode.ToolheadMove

/-! # The toolhead after a shutdown

`_handle_shutdown` resets the shared pointer to the look-ahead queue instead of the queue: what
reaches the queue later uses one that does not exist any more.
-/

namespace CentauriCarbon.GCode

inductive QueuingState where
  | needPrime
  | priming
  | drip

/-- The members of the toolhead that its calls use; `specialQueuingState` is `none` for the empty
string. -/
structure ToolHead (LookAhead : Type) where
  lookahead : Option LookAhead
  canPause : Bool
  commandedPos : Position
  printTime : ℚ
  specialQueuingState : Option QueuingState
  needCheckPause : ℚ
  checkStallTime : ℚ
  stepGenTime : ℚ
  minRestartTime : ℚ

inductive CallError where
  | commandError (text : String)
  /-- The use of a look-ahead queue through an empty pointer. -/
  | missingQueue

abbrev Call (LookAhead Result : Type) := ExceptT CallError (StateM (ToolHead LookAhead)) Result

/-- What the calls do with a queue that exists, with the clock and with the steppers. -/
structure Surroundings (LookAhead : Type) where
  flush : LookAhead → Call LookAhead Unit
  setFlushTime : LookAhead → Call LookAhead Unit
  isEmpty : LookAhead → Bool
  addMove : LookAhead → Move → Call LookAhead Unit
  /-- Appends to the callbacks of the last move; `false` without a move. -/
  appendCallback : LookAhead → (ℚ → Call LookAhead Unit) → Call LookAhead Bool
  estimatedPrintTime : ℚ → ℚ
  calcPrintTime : Call LookAhead Unit
  checkPause : Call LookAhead Unit
  advanceFlushTime : ℚ → Call LookAhead Unit
  /-- The loop of `wait_moves`. -/
  awaitPrintTime : Call LookAhead Unit

structure Busy where
  printTime : ℚ
  estPrintTime : ℚ
  lookaheadEmpty : Bool

structure Status where
  printTime : ℚ
  estimatedPrintTime : ℚ
  position : Position

/-- The first half of `ToolHead::move`: the move that is queued, if any. -/
def checkedMove (checks : MoveChecks) (commandedPos newpos : Position) :
    Except String (Option Move) :=
  let move := Move.new commandedPos newpos
  if move.moveDSq = 0 then .ok none
  else
    match if move.isKinematicMove then checks.kinematics move else none with
    | some text => .error text
    | none =>
      if move.axesD.e ≠ 0 ∧ (checks.extruder.checkMove move).isSome then .ok none
      else .ok (some move)

variable {LookAhead : Type}

namespace ToolHead

def handleShutdown (toolhead : ToolHead LookAhead) : ToolHead LookAhead :=
  { toolhead with canPause := false, lookahead := none }

def theLookahead : Call LookAhead LookAhead := do
  match (← get).lookahead with
  | some lookahead => return lookahead
  | none => throw .missingQueue

variable (outside : Surroundings LookAhead)

def flushLookahead : Call LookAhead Unit := do
  outside.flush (← theLookahead)
  modify fun toolhead =>
    { toolhead with specialQueuingState := some .needPrime, needCheckPause := -1 }
  outside.setFlushTime (← theLookahead)
  modify fun toolhead => { toolhead with checkStallTime := 0 }

def flushStepGeneration : Call LookAhead Unit := do
  flushLookahead outside
  outside.advanceFlushTime (← get).stepGenTime
  modify fun toolhead =>
    { toolhead with minRestartTime := max toolhead.minRestartTime toolhead.printTime }

def getLastMoveTime : Call LookAhead ℚ := do
  if (← get).specialQueuingState ≠ none then
    flushLookahead outside
    outside.calcPrintTime
  else
    outside.flush (← theLookahead)
  return (← get).printTime

def checkBusy (eventtime : ℚ) : Call LookAhead Busy := do
  let estPrintTime := outside.estimatedPrintTime eventtime
  let lookaheadEmpty := outside.isEmpty (← theLookahead)
  return ⟨(← get).printTime, estPrintTime, lookaheadEmpty⟩

def getStatus (eventtime : ℚ) : Call LookAhead Status := do
  return ⟨(← get).printTime, outside.estimatedPrintTime eventtime, (← get).commandedPos⟩

def registerLookaheadCallback (callback : ℚ → Call LookAhead Unit) : Call LookAhead Unit := do
  if !(← outside.appendCallback (← theLookahead) callback) then
    callback (← getLastMoveTime outside)

/-- The second half of `ToolHead::move`. -/
def queueMove : Except String (Option Move) → Call LookAhead Unit
  | .error text => throw (.commandError text)
  | .ok none => return
  | .ok (some move) => do
    modify fun toolhead => { toolhead with commandedPos := move.endPos }
    outside.addMove (← theLookahead) move
    if (← get).printTime > (← get).needCheckPause then outside.checkPause

def move (checks : MoveChecks) (newpos : Position) : Call LookAhead Unit := do
  queueMove outside (checkedMove checks (← get).commandedPos newpos)

def waitMoves : Call LookAhead Unit := do
  flushLookahead outside
  outside.awaitPrintTime

end ToolHead

inductive Request (LookAhead : Type) where
  | checkBusy (eventtime : ℚ)
  | getStatus (eventtime : ℚ)
  | getLastMoveTime
  | registerLookaheadCallback (callback : ℚ → Call LookAhead Unit)
  | move (checks : MoveChecks) (newpos : Position)
  | waitMoves
  | flushStepGeneration

namespace Request

variable (outside : Surroundings LookAhead)

def perform : Request LookAhead → Call LookAhead Unit
  | checkBusy eventtime => do let _ ← ToolHead.checkBusy outside eventtime
  | getStatus eventtime => do let _ ← ToolHead.getStatus outside eventtime
  | getLastMoveTime => do let _ ← ToolHead.getLastMoveTime outside
  | registerLookaheadCallback callback => ToolHead.registerLookaheadCallback outside callback
  | move checks newpos => ToolHead.move outside checks newpos
  | waitMoves => ToolHead.waitMoves outside
  | flushStepGeneration => ToolHead.flushStepGeneration outside

/-- No request uses a queue that does not exist. -/
def Survives : List (Request LookAhead) → ToolHead LookAhead → Prop
  | [], _ => True
  | request :: requests, toolhead =>
    ((request.perform outside).run toolhead).1 ≠ .error .missingQueue ∧
      Survives requests ((request.perform outside).run toolhead).2

/-- A status query, or a move that ends before it is queued. -/
def Harmless (commandedPos : Position) : Request LookAhead → Prop
  | getStatus _ => True
  | move checks newpos => ∀ move, checkedMove checks commandedPos newpos ≠ .ok (some move)
  | _ => False

variable (toolhead : ToolHead LookAhead) {request : Request LookAhead}

theorem run_move (checks : MoveChecks) (newpos : Position) :
    (perform outside (.move checks newpos)).run toolhead =
      (ToolHead.queueMove outside (checkedMove checks toolhead.commandedPos newpos)).run
        toolhead := by
  rfl

theorem perform_harmless (harmless : request.Harmless toolhead.commandedPos) :
    ∃ result, (request.perform outside).run toolhead = (result, toolhead) ∧
      result ≠ .error .missingQueue := by
  cases request with
  | getStatus eventtime => exact ⟨_, rfl, by simp⟩
  | checkBusy | getLastMoveTime | registerLookaheadCallback | waitMoves | flushStepGeneration =>
    cases harmless
  | move checks newpos =>
    rw [run_move]
    rw [Harmless] at harmless
    rcases isMove : checkedMove checks toolhead.commandedPos newpos with text | none | move
    · exact ⟨_, rfl, by simp⟩
    · exact ⟨_, rfl, by simp⟩
    · exact absurd isMove (harmless move)

theorem perform_harmful (harmful : ¬request.Harmless toolhead.commandedPos) :
    ((request.perform outside).run toolhead.handleShutdown).1 = .error .missingQueue := by
  cases request with
  | getStatus eventtime => exact absurd trivial harmful
  | checkBusy | registerLookaheadCallback | waitMoves | flushStepGeneration => rfl
  | getLastMoveTime =>
    rcases toolhead with ⟨lookahead, canPause, commandedPos, printTime, _ | queuingState⟩ <;> rfl
  | move checks newpos =>
    rw [Harmless] at harmful
    push Not at harmful
    rcases harmful with ⟨move, isMove⟩
    rw [run_move, ToolHead.handleShutdown, isMove]
    rfl

/-- After a shutdown the requests survive exactly if each of them is a status query or a move
that ends before it is queued. -/
theorem survives_shutdown_iff (requests : List (Request LookAhead)) :
    Survives outside requests toolhead.handleShutdown ↔
      ∀ request ∈ requests, request.Harmless toolhead.commandedPos := by
  induction requests with
  | nil => simp [Survives]
  | cons request requests induction =>
    rw [Survives, List.forall_mem_cons, ← induction]
    by_cases harmless : request.Harmless toolhead.commandedPos
    · rcases perform_harmless outside toolhead.handleShutdown harmless with ⟨result, run, returns⟩
      rw [run]
      exact and_congr_left fun _ => iff_of_true returns harmless
    · have fails := perform_harmful outside toolhead harmless
      exact iff_of_false (fun survives => survives.1 fails) (fun all => harmless all.1)

/-- Surroundings in which every call returns. -/
def quiet : Surroundings Unit where
  flush _ := return
  setFlushTime _ := return
  isEmpty _ := true
  addMove _ _ := return
  appendCallback _ _ := return false
  estimatedPrintTime eventtime := eventtime
  calcPrintTime := return
  checkPause := return
  advanceFlushTime _ := return
  awaitPrintTime := return

theorem checkBusy_uses_missing_queue :
    let toolhead : ToolHead Unit := ⟨some (), true, ⟨0, 0, 0, 0⟩, 0, none, 0, 0, 0, 0⟩
    Survives quiet [.checkBusy 0] toolhead ∧
      ¬Survives quiet [.checkBusy 0] toolhead.handleShutdown := by
  intro toolhead
  constructor
  · exact ⟨fun failed => (by cases failed), trivial⟩
  · intro survives
    exact survives.1 (perform_harmful quiet toolhead id)

end Request

end CentauriCarbon.GCode
