import CentauriCarbon.Moves.MoveHeap
import CentauriCarbon.Stepping.StepperPosition

/-! # The users of the move nodes

Steppers and pins fill and empty their queues in commands, in timers and on a trigger; a shutdown
may come in the middle of each. A command takes its node with interrupts enabled, and puts it into
a queue after it has disabled them: interrupts come in between. Steppers and pins are numbered in
the order of their oids, and their registers are those of the models without a heap, where the
field `mq` is not used.
-/

namespace CentauriCarbon.Moves

open Outputs (DigitalFunc DigitalOut DigitalShutdown)
open Scheduler (timerIsBefore)
open Stepping (PulsedStepper)

/-- What is fixed by the configuration; `alloc_chunks` has found room for at least one node. -/
structure MoveConfig where
  steppers : Nat
  pins : Nat
  moveCount : Nat
  moveCount_ne : moveCount ≠ 0
  /-- `timer_from_us(1000)` -/
  maxLate : UInt32
  stepPulseTicks : Fin steppers → UInt32

inductive QueueId (config : MoveConfig) where
  | stepper (oid : Fin config.steppers)
  | digitalOut (oid : Fin config.pins)
  deriving DecidableEq

inductive QueueCommand (config : MoveConfig) where
  | queueStep (oid : Fin config.steppers) (interval count add : UInt32)
  | queueDigitalOut (oid : Fin config.pins) (clock onTicks : UInt32)

inductive MoveShutdown where
  | moveQueueOverflow
  | invalidCount
  | timerTooClose
  | resetWhenActive
  | stepperTooFarInPast
  | notShutdown
  | digital (reason : DigitalShutdown)
  /-- A shutdown by other code. -/
  | other (text : String)

structure MoveSystem (config : MoveConfig) where
  heap : MoveHeap (QueueId config)
  stepper : Fin config.steppers → PulsedStepper
  digitalOut : Fin config.pins → DigitalOut
  command : Option (Nat × QueueCommand config)
  /-- The reason of the shutdown the machine is in. -/
  shutdown : Option MoveShutdown

inductive Outcome (config : MoveConfig) where
  | running (sys : MoveSystem config)
  | shutdown (sys : MoveSystem config) (reason : MoveShutdown)

inductive ShutdownHandler where
  | moveReset
  | digitalOutShutdown
  | stepperShutdown
  | trsyncShutdown
  deriving DecidableEq

namespace MoveSystem

variable {config : MoveConfig} (sys : MoveSystem config) (oid : Fin config.steppers)

def setStepper (s : PulsedStepper) : MoveSystem config :=
  { sys with stepper := Function.update sys.stepper oid s }

def setDigitalOut (oid : Fin config.pins) (d : DigitalOut) : MoveSystem config :=
  { sys with digitalOut := Function.update sys.digitalOut oid d }

def stepperLoadNext (sys : MoveSystem config) (oid : Fin config.steppers) :
    Option (MoveSystem config × Bool) :=
  let s := sys.stepper oid
  if sys.heap.moveQueueEmpty (.stepper oid) then
    some (sys.setStepper oid { s with count := 0 }, false)
  else
    (sys.heap.moveQueuePop (.stepper oid)).map fun (m, heap) =>
      let loaded := Stepping.stepperLoadNext { s.toStepper with mq := [heap.stepperMove m] }
      ({ sys with heap := heap.moveFree m }.setStepper oid { s with toStepper := loaded.1 }, true)

def stepperEventLast (curtime : UInt32) : Option (Outcome config) :=
  let s := sys.stepper oid
  if s.singleSched then
    let s := { s with stepPin := !s.stepPin, steps := s.steps ++ [(s.dirPin, s.waketime)] }
    ((sys.setStepper oid s).stepperLoadNext oid).map fun (sys, more) =>
      .running (sys.setStepper oid { sys.stepper oid with timerActive := more })
  else
    let minNextTime := curtime + config.stepPulseTicks oid
    let s := { s.toggleStepPin with count := s.count - 1 }
    ((sys.setStepper oid s).stepperLoadNext oid).map fun (sys, more) =>
      let s := { sys.stepper oid with timerActive := more }
      let sys := sys.setStepper oid s
      if !more || !timerIsBefore s.waketime minNextTime then .running sys
      else if (s.waketime - minNextTime).toInt32 < (-config.maxLate).toInt32 then
        .shutdown sys .stepperTooFarInPast
      else .running (sys.setStepper oid { s with waketime := minNextTime })

/-- `stepper_event`; in the middle of a move the queue is not looked at. -/
def stepperEvent (sys : MoveSystem config) (oid : Fin config.steppers) (curtime : UInt32) :
    Option (Outcome config) :=
  let s := sys.stepper oid
  if s.count - 1 ≠ 0 then
    some (.running (sys.setStepper oid
      (s.stepperEvent config.maxLate (config.stepPulseTicks oid) curtime)))
  else sys.stepperEventLast oid curtime

/-- `command_queue_step` up to the point where it disables interrupts. -/
def commandQueueStep (interval count add : UInt32) : Outcome config :=
  match sys.heap.moveAlloc with
  | none => .shutdown sys .moveQueueOverflow
  | some (m, heap) =>
    let sys := { sys with heap, command := some (m, .queueStep oid interval count add) }
    if count.toUInt16 = 0 then .shutdown sys .invalidCount else .running sys

/-- The rest of `command_queue_step`; `tooClose` says that the scheduler finds the time of the
timer to be in the past. -/
def finishQueueStep (m : Nat) (oid : Fin config.steppers)
    (interval count add : UInt32) (tooClose : Bool) : Option (Outcome config) :=
  let s := sys.stepper oid
  let move := Stepping.newMove s.toStepper interval count add
  let heap := sys.heap.setData m (.stepper move)
  let sys := { sys with command := none }
  if s.count ≠ 0 then
    (heap.moveQueuePush (.stepper oid) m).map fun (heap, _) =>
      .running ({ sys with heap }.setStepper oid { s with lastDir := s.nextDir })
  else if s.needReset then some (.running { sys with heap := heap.moveFree m })
  else
    (heap.moveQueuePush (.stepper oid) m).bind fun (heap, _) =>
      let sys := { sys with heap }.setStepper oid { s with lastDir := s.nextDir }
      (sys.stepperLoadNext oid).map fun (sys, _) =>
        if tooClose then .shutdown sys .timerTooClose
        else .running (sys.setStepper oid { sys.stepper oid with timerActive := true })

def commandSetNextStepDir (sys : MoveSystem config) (oid : Fin config.steppers) (dir : UInt32) :
    MoveSystem config :=
  let s := sys.stepper oid
  sys.setStepper oid { s with toStepper := Stepping.commandSetNextStepDir s.toStepper dir }

def commandResetStepClock (waketime : UInt32) : Outcome config :=
  let s := sys.stepper oid
  if s.count ≠ 0 then .shutdown sys .resetWhenActive
  else .running (sys.setStepper oid
    { s with nextStepTime := waketime, waketime, needReset := false })

def stepperStop (sys : MoveSystem config) (oid : Fin config.steppers) :
    Option (MoveSystem config) :=
  let sys := sys.setStepper oid (sys.stepper oid).stepperStop
  (sys.heap.freeQueue (.stepper oid) config.moveCount).map fun heap => { sys with heap }

def loadedMoves (heap : MoveHeap (QueueId config)) (m : Nat) (oid : Fin config.pins) :
    List Outputs.DigitalMove :=
  heap.digitalMove m :: ((heap.mq (.digitalOut oid)).first.map heap.digitalMove).toList

def digitalLoadEvent (sys : MoveSystem config) (oid : Fin config.pins) : Option (Outcome config) :=
  if sys.heap.moveQueueEmpty (.digitalOut oid) then
    some (.shutdown sys (.digital .missedScheduling))
  else
    (sys.heap.moveQueuePop (.digitalOut oid)).map fun (m, heap) =>
      let heap := heap.moveFree m
      let sys := { sys with heap }
      match { sys.digitalOut oid with mq := loadedMoves heap m oid }.digitalLoadEvent with
      | .error reason => .shutdown sys (.digital reason)
      | .ok d => .running (sys.setDigitalOut oid { d with mq := [] })

def digitalToggleEvent (sys : MoveSystem config) (oid : Fin config.pins) : MoveSystem config :=
  sys.setDigitalOut oid (sys.digitalOut oid).digitalToggleEvent

def commandQueueDigitalOut (oid : Fin config.pins) (clock onTicks : UInt32) : Outcome config :=
  match sys.heap.moveAlloc with
  | none => .shutdown sys .moveQueueOverflow
  | some (m, heap) =>
    .running { sys with heap, command := some (m, .queueDigitalOut oid clock onTicks) }

/-- The rest of `command_queue_digital_out`. The registers change only if the queue was empty,
and the timer is not added if the pin is toggling until then. -/
def finishQueueDigitalOut (m : Nat) (oid : Fin config.pins)
    (clock onTicks : UInt32) (tooClose : Bool) : Option (Outcome config) :=
  let heap := sys.heap.setData m (.digital ⟨clock, onTicks⟩)
  let d := sys.digitalOut oid
  (heap.moveQueuePush (.digitalOut oid) m).map fun (heap, firstOnQueue) =>
    let sys := { sys with heap, command := none }
    if !firstOnQueue then .running sys
    else
      match { d with mq := [] }.commandQueueDigitalOut clock onTicks with
      | .error reason => .shutdown sys (.digital reason)
      | .ok next =>
        if tooClose && !(d.toggling && timerIsBefore d.waketime clock) then
          .shutdown sys .timerTooClose
        else .running (sys.setDigitalOut oid { next with mq := [] })

def commandSetDigitalOutPwmCycle (oid : Fin config.pins) (cycleTicks : UInt32) : Outcome config :=
  if !sys.heap.moveQueueEmpty (.digitalOut oid) then .shutdown sys (.digital .updatesPending)
  else .running (sys.setDigitalOut oid { sys.digitalOut oid with cycleTime := cycleTicks })

def commandUpdateDigitalOut (sys : MoveSystem config) (oid : Fin config.pins)
    (now value : UInt32) (tooClose : Bool) : Outcome config :=
  let sys := sys.setDigitalOut oid { sys.digitalOut oid with scheduled := false }
  if !sys.heap.moveQueueEmpty (.digitalOut oid) then .shutdown sys (.digital .activeQueue)
  else
    match { sys.digitalOut oid with mq := [] }.commandUpdateDigitalOut now value with
    | .error reason => .shutdown sys (.digital reason)
    | .ok d =>
      if d.scheduled && tooClose then .shutdown sys .timerTooClose
      else .running (sys.setDigitalOut oid d)

def schedTimerReset : MoveSystem config :=
  { sys with
    stepper := fun oid => { sys.stepper oid with timerActive := false }
    digitalOut := fun oid => { sys.digitalOut oid with scheduled := false } }

def shutdownStepper : Option (MoveSystem config) :=
  { sys with heap := sys.heap.moveQueueClear (.stepper oid) }.stepperStop oid

def shutdownDigitalOut (oid : Fin config.pins) : MoveSystem config :=
  let d := sys.digitalOut oid
  { sys with heap := sys.heap.moveQueueClear (.digitalOut oid) }.setDigitalOut oid
    { d with pin := d.defaultOn, on := d.defaultOn, toggling := false, checkEnd := false }

/-- Runs a handler. `trsync_shutdown` only unregisters the callbacks of triggers; the system
does not depend on whether they are registered. -/
def runHandler : ShutdownHandler → Option (MoveSystem config)
  | .moveReset => some { sys with heap := sys.heap.moveReset }
  | .digitalOutShutdown => some ((List.finRange config.pins).foldl shutdownDigitalOut sys)
  | .stepperShutdown => (List.finRange config.steppers).foldlM shutdownStepper sys
  | .trsyncShutdown => some sys

/-- `run_shutdown` with the handlers in some order; the interrupted code is not resumed. -/
def runShutdown (handlers : List ShutdownHandler)
    (reason : MoveShutdown) : Option (MoveSystem config) :=
  (handlers.foldlM runHandler sys.schedTimerReset).map fun next =>
    { next with command := none, shutdown := some (sys.shutdown.getD reason) }

def schedClearShutdown : Outcome config :=
  if sys.shutdown.isNone then .shutdown sys .notShutdown
  else .running { sys with shutdown := none }

end MoveSystem

inductive MoveEvent (config : MoveConfig) where
  | queueStep (oid : Fin config.steppers) (interval count add : UInt32)
  | queueDigitalOut (oid : Fin config.pins) (clock onTicks : UInt32)
  /-- The command in progress disables interrupts and does the rest. -/
  | finish (tooClose : Bool)
  | setNextStepDir (oid : Fin config.steppers) (dir : UInt32)
  | resetStepClock (oid : Fin config.steppers) (waketime : UInt32)
  | setPwmCycle (oid : Fin config.pins) (cycleTicks : UInt32)
  | updateDigitalOut (oid : Fin config.pins) (now value : UInt32) (tooClose : Bool)
  | clearShutdown
  /-- Interrupts. -/
  | stepperEvent (oid : Fin config.steppers) (curtime : UInt32)
  | stepperStop (oid : Fin config.steppers)
  | digitalToggle (oid : Fin config.pins)
  | digitalLoad (oid : Fin config.pins)
  | shutdown (text : String)

structure MoveStep (config : MoveConfig) where
  event : MoveEvent config
  handlers : List ShutdownHandler

namespace MoveSystem

variable {config : MoveConfig} (sys : MoveSystem config)

/-- A command is dispatched after the one before it, and while there is no shutdown. -/
def dispatches : Bool := sys.command.isNone && sys.shutdown.isNone

def ready : MoveEvent config → Bool
  | .queueStep .. | .queueDigitalOut .. | .setNextStepDir .. | .resetStepClock ..
  | .setPwmCycle .. | .updateDigitalOut .. => sys.dispatches
  | .clearShutdown => sys.command.isNone
  | .finish _ => sys.command.isSome
  | .stepperEvent oid _ => (sys.stepper oid).timerActive
  | .digitalToggle oid => (sys.digitalOut oid).scheduled && (sys.digitalOut oid).func == .toggle
  | .digitalLoad oid => (sys.digitalOut oid).scheduled && (sys.digitalOut oid).func == .load
  | .stepperStop _ | .shutdown _ => true

def finish (tooClose : Bool) : Option (Outcome config) :=
  match sys.command with
  | none => none
  | some (m, .queueStep oid interval count add) =>
    sys.finishQueueStep m oid interval count add tooClose
  | some (m, .queueDigitalOut oid clock onTicks) =>
    sys.finishQueueDigitalOut m oid clock onTicks tooClose

/-- What an event does. There is no result where the code follows a null pointer or does not
end. -/
def handle : MoveEvent config → Option (Outcome config)
  | .queueStep oid interval count add => some (sys.commandQueueStep oid interval count add)
  | .queueDigitalOut oid clock onTicks => some (sys.commandQueueDigitalOut oid clock onTicks)
  | .finish tooClose => sys.finish tooClose
  | .setNextStepDir oid dir => some (.running (sys.commandSetNextStepDir oid dir))
  | .resetStepClock oid waketime => some (sys.commandResetStepClock oid waketime)
  | .setPwmCycle oid cycleTicks => some (sys.commandSetDigitalOutPwmCycle oid cycleTicks)
  | .updateDigitalOut oid now value tooClose =>
    some (sys.commandUpdateDigitalOut oid now value tooClose)
  | .clearShutdown => some sys.schedClearShutdown
  | .stepperEvent oid curtime => sys.stepperEvent oid curtime
  | .stepperStop oid => (sys.stepperStop oid).map .running
  | .digitalToggle oid => some (.running (sys.digitalToggleEvent oid))
  | .digitalLoad oid => sys.digitalLoadEvent oid
  | .shutdown text => some (.shutdown sys (.other text))

def conclude (handlers : List ShutdownHandler) : Outcome config → Option (MoveSystem config)
  | .running sys => some sys
  | .shutdown sys reason => sys.runShutdown handlers reason

def allHandlers : List ShutdownHandler :=
  [.moveReset, .digitalOutShutdown, .stepperShutdown, .trsyncShutdown]

def allows (step : MoveStep config) : Bool :=
  sys.ready step.event && step.handlers.isPerm allHandlers

def step (sys : MoveSystem config) (step : MoveStep config) : Option (MoveSystem config) :=
  if sys.allows step then (sys.handle step.event).bind (conclude step.handlers) else none

def moveFinalize (config : MoveConfig) (stepper : Fin config.steppers → PulsedStepper)
    (digitalOut : Fin config.pins → DigitalOut) : MoveSystem config where
  heap := .moveFinalize config.moveCount
  stepper
  digitalOut
  command := none
  shutdown := none

def inHand : List Nat := (sys.command.map Prod.fst).toList

/-! ## While there is no shutdown -/

variable {sys}

structure Working (sys : MoveSystem config) (hand : List Nat)
    (left : Option (Nat × QueueCommand config)) : Prop where
  holding : sys.heap.Holding config.moveCount hand
  command : sys.command = left
  running : sys.shutdown = none

structure Idle (sys : MoveSystem config) : Prop where
  queues : ∀ q, sys.heap.moveQueueEmpty q = true
  command : sys.command = none
  stepperTimers : ∀ oid, (sys.stepper oid).timerActive = false
  pinTimers : ∀ oid, (sys.digitalOut oid).scheduled = false

structure Conserved (sys : MoveSystem config) : Prop where
  holding : sys.heap.Holding config.moveCount sys.inHand
  idle : sys.shutdown.isSome → sys.Idle

/-- What the end of a piece of code must leave behind: a shutdown will rebuild the free list, and
only needs to know the number of nodes. -/
def Leaves : Outcome config → Prop
  | .running sys => sys.Conserved
  | .shutdown sys _ => sys.heap.moveCount = config.moveCount

namespace Working

variable {left : Option (Nat × QueueCommand config)} (oid : Fin config.steppers)

section

variable (working : sys.Working hand left)
include working

theorem conserved (same : (left.map Prod.fst).toList = hand) : sys.Conserved where
  holding := by
    rw [inHand, working.command, same]
    exact working.holding
  idle := by
    intro isShutdown
    rw [working.running] at isShutdown
    cases isShutdown

theorem setStepper (s : PulsedStepper) : (sys.setStepper oid s).Working hand left :=
  { working with }

theorem setDigitalOut (oid : Fin config.pins) (d : DigitalOut) :
    (sys.setDigitalOut oid d).Working hand left :=
  { working with }

theorem stepperLoadNext :
    ∃ next more, sys.stepperLoadNext oid = some (next, more) ∧ next.Working hand left := by
  rw [MoveSystem.stepperLoadNext]
  cases empty : sys.heap.moveQueueEmpty (.stepper oid) with
  | true => exact ⟨_, _, rfl, working.setStepper oid _⟩
  | false =>
    rcases working.holding.moveQueuePop empty with ⟨m, heap, popped, holding⟩
    rw [popped]
    exact ⟨_, _, rfl, holding.moveFree, working.command, working.running⟩

theorem counted : sys.heap.moveCount = config.moveCount := by
  rcases working.holding with ⟨nodes, placed, -⟩
  exact placed.counted

variable (same : (left.map Prod.fst).toList = hand)
include same

theorem stepperEventLast (curtime : UInt32) :
    ∃ outcome, sys.stepperEventLast oid curtime = some outcome ∧ Leaves outcome := by
  rw [MoveSystem.stepperEventLast]
  dsimp only
  split
  · rcases (working.setStepper oid _).stepperLoadNext oid with ⟨next, more, loaded, working⟩
    rw [loaded]
    exact ⟨_, rfl, (working.setStepper oid _).conserved same⟩
  rcases (working.setStepper oid _).stepperLoadNext oid with ⟨next, more, loaded, working⟩
  rw [loaded]
  refine ⟨_, rfl, ?_⟩
  dsimp only
  split
  · exact (working.setStepper oid _).conserved same
  · split
    · exact (working.setStepper oid _).counted
    · exact ((working.setStepper oid _).setStepper oid _).conserved same

theorem stepperEvent (curtime : UInt32) :
    ∃ outcome, sys.stepperEvent oid curtime = some outcome ∧ Leaves outcome := by
  rw [MoveSystem.stepperEvent]
  split
  · exact ⟨_, rfl, (working.setStepper oid _).conserved same⟩
  · exact working.stepperEventLast oid same curtime

theorem digitalLoadEvent (oid : Fin config.pins) :
    ∃ outcome, sys.digitalLoadEvent oid = some outcome ∧ Leaves outcome := by
  rw [MoveSystem.digitalLoadEvent]
  cases empty : sys.heap.moveQueueEmpty (.digitalOut oid) with
  | true => exact ⟨_, rfl, working.counted⟩
  | false =>
    rcases working.holding.moveQueuePop empty with ⟨m, heap, popped, holding⟩
    have freed : { sys with heap := heap.moveFree m }.Working hand left :=
      ⟨holding.moveFree, working.command, working.running⟩
    rw [popped]
    refine ⟨_, rfl, ?_⟩
    dsimp only
    split
    · exact freed.counted
    · exact (freed.setDigitalOut oid _).conserved same

end

theorem finishQueueStep (working : sys.Working [m] left) (interval count add : UInt32)
    (tooClose : Bool) :
    ∃ outcome, sys.finishQueueStep m oid interval count add tooClose = some outcome ∧
      Leaves outcome := by
  rw [MoveSystem.finishQueueStep]
  dsimp only
  have written := working.holding.setData (m := m)
    (.stepper (Stepping.newMove (sys.stepper oid).toStepper interval count add))
  rcases written.moveQueuePush (.stepper oid) with ⟨heap, pushed, holding⟩
  have queued : ({ sys with heap, command := none } : MoveSystem config).Working [] none :=
    ⟨holding, rfl, working.running⟩
  split
  · rw [pushed]
    exact ⟨_, rfl, (queued.setStepper oid _).conserved rfl⟩
  split
  · have freed : ({ sys with heap := _, command := none } : MoveSystem config).Working []
        none := ⟨written.moveFree, rfl, working.running⟩
    exact ⟨_, rfl, freed.conserved rfl⟩
  rw [pushed, Option.bind_some]
  rcases (queued.setStepper oid _).stepperLoadNext oid with ⟨next, more, loaded, working⟩
  rw [loaded]
  refine ⟨_, rfl, ?_⟩
  split
  · exact working.counted
  · exact (working.setStepper oid _).conserved rfl

theorem finishQueueDigitalOut (working : sys.Working [m] left) (oid : Fin config.pins)
    (clock onTicks : UInt32) (tooClose : Bool) :
    ∃ outcome, sys.finishQueueDigitalOut m oid clock onTicks tooClose = some outcome ∧
      Leaves outcome := by
  rw [MoveSystem.finishQueueDigitalOut]
  have written := working.holding.setData (m := m) (.digital ⟨clock, onTicks⟩)
  rcases written.moveQueuePush (.digitalOut oid) with ⟨heap, pushed, holding⟩
  have queued : ({ sys with heap, command := none } : MoveSystem config).Working [] none :=
    ⟨holding, rfl, working.running⟩
  rw [pushed]
  refine ⟨_, rfl, ?_⟩
  dsimp only
  split
  · exact queued.conserved rfl
  split
  · exact queued.counted
  · split
    · exact queued.counted
    · exact (queued.setDigitalOut oid _).conserved rfl

variable (working : sys.Working [] none)
include working

theorem moveAlloc {heap : MoveHeap (QueueId config)}
    (allocated : sys.heap.moveAlloc = some (m, heap)) (command : QueueCommand config) :
    { sys with heap, command := some (m, command) }.Working [m] (some (m, command)) :=
  ⟨working.holding.moveAlloc allocated, rfl, working.running⟩

theorem commandQueueStep (interval count add : UInt32) :
    Leaves (sys.commandQueueStep oid interval count add) := by
  rw [MoveSystem.commandQueueStep]
  split
  · exact working.counted
  next m heap allocated =>
    have holds := working.moveAlloc allocated (.queueStep oid interval count add)
    split
    · exact holds.counted
    · exact holds.conserved rfl

theorem commandQueueDigitalOut (oid : Fin config.pins) (clock onTicks : UInt32) :
    Leaves (sys.commandQueueDigitalOut oid clock onTicks) := by
  rw [MoveSystem.commandQueueDigitalOut]
  split
  · exact working.counted
  next m heap allocated => exact (working.moveAlloc allocated _).conserved rfl

theorem commandSetDigitalOutPwmCycle (oid : Fin config.pins) (cycleTicks : UInt32) :
    Leaves (sys.commandSetDigitalOutPwmCycle oid cycleTicks) := by
  rw [MoveSystem.commandSetDigitalOutPwmCycle]
  split
  · exact working.counted
  · exact (working.setDigitalOut oid _).conserved rfl

theorem commandUpdateDigitalOut (oid : Fin config.pins) (now value : UInt32) (tooClose : Bool) :
    Leaves (sys.commandUpdateDigitalOut oid now value tooClose) := by
  have unscheduled := working.setDigitalOut oid { sys.digitalOut oid with scheduled := false }
  rw [MoveSystem.commandUpdateDigitalOut]
  split
  · exact unscheduled.counted
  split
  · exact unscheduled.counted
  · split
    · exact unscheduled.counted
    · exact (unscheduled.setDigitalOut oid _).conserved rfl

theorem commandResetStepClock (waketime : UInt32) :
    Leaves (sys.commandResetStepClock oid waketime) := by
  rw [MoveSystem.commandResetStepClock]
  split
  · exact working.counted
  · exact (working.setStepper oid _).conserved rfl

end Working

/-- No timer becomes active if the one that changes does not. -/
theorem inactive_update (active : User → Bool) {users : Fin count → User}
    (inactive : ∀ oid, active (users oid) = false) (kept : active user = false)
    (other : Fin count) : active (Function.update users oid user other) = false :=
  (Function.forall_update_iff users fun _ user => active user = false).mpr
    ⟨kept, fun other _ => inactive other⟩ other

namespace Conserved

variable (conserved : sys.Conserved)
include conserved

theorem working (running : sys.shutdown = none) : sys.Working sys.inHand sys.command :=
  ⟨conserved.holding, rfl, running⟩

/-- What needs a command in progress or a scheduled timer does not happen in a shutdown. -/
theorem running_of (busy : ¬sys.Idle) : sys.shutdown = none := by
  cases isShutdown : sys.shutdown with
  | none => rfl
  | some reason => exact absurd (conserved.idle (by rw [isShutdown]; rfl)) busy

/-- A stop frees the nodes of the queue, and in a shutdown there are none. -/
theorem stepperStop (oid : Fin config.steppers) :
    ∃ next, sys.stepperStop oid = some next ∧ next.Conserved := by
  rcases conserved.holding.freeQueue (.stepper oid) with ⟨heap, freed, holding⟩
  refine ⟨_, congrArg (Option.map _) freed, holding, ?_⟩
  intro isShutdown
  have idle := conserved.idle isShutdown
  have unchanged : heap = sys.heap := by
    rw [MoveHeap.freeQueue_of_empty (idle.queues _)] at freed
    exact (Option.some.inj freed).symm
  refine ⟨?_, idle.command, ?_, idle.pinTimers⟩
  · intro q
    rw [unchanged]
    exact idle.queues q
  · exact inactive_update (fun s : PulsedStepper => s.timerActive) idle.stepperTimers rfl

theorem schedClearShutdown : Leaves sys.schedClearShutdown := by
  rw [MoveSystem.schedClearShutdown]
  split
  · rcases conserved.holding with ⟨nodes, placed, -⟩
    exact placed.counted
  · refine ⟨conserved.holding, ?_⟩
    nofun

theorem finish (isSome : sys.command.isSome) (tooClose : Bool) :
    ∃ outcome, sys.finish tooClose = some outcome ∧ Leaves outcome := by
  have running : sys.shutdown = none := by
    apply conserved.running_of
    intro idle
    rw [idle.command] at isSome
    cases isSome
  have working := conserved.working running
  rw [MoveSystem.finish]
  rw [inHand] at working
  split
  next noCommand =>
    rw [noCommand] at isSome
    cases isSome
  next m oid interval count add isCommand =>
    rw [isCommand] at working
    exact working.finishQueueStep oid interval count add tooClose
  next m oid clock onTicks isCommand =>
    rw [isCommand] at working
    exact working.finishQueueDigitalOut oid clock onTicks tooClose

theorem working_of_timer
    (scheduled : (∃ oid, (sys.stepper oid).timerActive) ∨
      ∃ oid, (sys.digitalOut oid).scheduled) : sys.Working sys.inHand sys.command := by
  apply conserved.working
  apply conserved.running_of
  intro idle
  rcases scheduled with ⟨oid, active⟩ | ⟨oid, active⟩
  · rw [idle.stepperTimers oid] at active
    cases active
  · rw [idle.pinTimers oid] at active
    cases active

theorem working_of_dispatches (dispatches : sys.dispatches) : sys.Working [] none := by
  rw [MoveSystem.dispatches, Bool.and_eq_true, Option.isNone_iff_eq_none,
    Option.isNone_iff_eq_none] at dispatches
  have working := conserved.working dispatches.2
  rw [inHand, dispatches.1] at working
  exact working

theorem handle (ready : sys.ready event) :
    ∃ outcome, sys.handle event = some outcome ∧ Leaves outcome := by
  cases event with
  | queueStep oid interval count add =>
    exact ⟨_, rfl, (conserved.working_of_dispatches ready).commandQueueStep oid _ _ _⟩
  | queueDigitalOut oid clock onTicks =>
    exact ⟨_, rfl, (conserved.working_of_dispatches ready).commandQueueDigitalOut oid _ _⟩
  | finish tooClose => exact conserved.finish ready tooClose
  | setNextStepDir oid dir =>
    exact ⟨_, rfl, ((conserved.working_of_dispatches ready).setStepper oid _).conserved rfl⟩
  | resetStepClock oid waketime =>
    exact ⟨_, rfl, (conserved.working_of_dispatches ready).commandResetStepClock oid _⟩
  | setPwmCycle oid cycleTicks =>
    exact ⟨_, rfl, (conserved.working_of_dispatches ready).commandSetDigitalOutPwmCycle oid _⟩
  | updateDigitalOut oid now value tooClose =>
    exact ⟨_, rfl, (conserved.working_of_dispatches ready).commandUpdateDigitalOut oid _ _ _⟩
  | clearShutdown => exact ⟨_, rfl, conserved.schedClearShutdown⟩
  | stepperEvent oid curtime =>
    exact (conserved.working_of_timer (.inl ⟨oid, ready⟩)).stepperEvent oid rfl curtime
  | stepperStop oid =>
    rcases conserved.stepperStop oid with ⟨next, stopped, kept⟩
    exact ⟨_, congrArg (Option.map _) stopped, kept⟩
  | digitalToggle oid =>
    have scheduled := (Bool.and_eq_true_iff.mp ready).1
    have working := conserved.working_of_timer (.inr ⟨oid, scheduled⟩)
    exact ⟨_, rfl, (working.setDigitalOut oid _).conserved rfl⟩
  | digitalLoad oid =>
    have scheduled := (Bool.and_eq_true_iff.mp ready).1
    exact (conserved.working_of_timer (.inr ⟨oid, scheduled⟩)).digitalLoadEvent rfl oid
  | shutdown text =>
    rcases conserved.holding with ⟨nodes, placed, -⟩
    exact ⟨_, rfl, placed.counted⟩

end Conserved

/-! ## Shutdowns -/

structure Settled (done : ShutdownHandler → Prop) (sys : MoveSystem config) : Prop where
  counted : sys.heap.moveCount = config.moveCount
  reset : done .moveReset → Hangs sys.heap.next sys.heap.moveFreeList (List.range config.moveCount)
  pins : done .digitalOutShutdown → ∀ oid, sys.heap.moveQueueEmpty (.digitalOut oid) = true
  steppers : done .stepperShutdown → ∀ oid, sys.heap.moveQueueEmpty (.stepper oid) = true
  stepperTimers : ∀ oid, (sys.stepper oid).timerActive = false
  pinTimers : ∀ oid, (sys.digitalOut oid).scheduled = false

namespace Settled

variable (settled : sys.Settled done)
include settled

theorem moveQueueClear (q : QueueId config) :
    { sys with heap := sys.heap.moveQueueClear q }.Settled done :=
  { settled with
    pins := fun isDone oid => MoveHeap.moveQueueEmpty_clear (settled.pins isDone oid)
    steppers := fun isDone oid => MoveHeap.moveQueueEmpty_clear (settled.steppers isDone oid) }

theorem shutdownDigitalOut (oid : Fin config.pins) : (sys.shutdownDigitalOut oid).Settled done :=
  { settled.moveQueueClear (.digitalOut oid) with
    pinTimers := inactive_update _ settled.pinTimers (settled.pinTimers oid) }

theorem shutdownStepper (oid : Fin config.steppers) :
    ∃ next, sys.shutdownStepper oid = some next ∧ next.Settled done ∧
      next.heap = sys.heap.moveQueueClear (.stepper oid) := by
  have cleared := settled.moveQueueClear (.stepper oid)
  have empty : (sys.heap.moveQueueClear (.stepper oid)).moveQueueEmpty (.stepper oid) :=
    MoveHeap.moveQueueEmpty_clear_self
  refine ⟨_, congrArg (Option.map _) (MoveHeap.freeQueue_of_empty empty _), ?_, rfl⟩
  exact { cleared with
    stepperTimers :=
      inactive_update (fun s : PulsedStepper => s.timerActive) cleared.stepperTimers rfl }

/-- All queues of the loop of `digital_out_shutdown` are empty after it. -/
theorem shutdownDigitalOuts (oids : List (Fin config.pins)) :
    (oids.foldl MoveSystem.shutdownDigitalOut sys).Settled done ∧
      ∀ oid, oid ∈ oids ∨ sys.heap.moveQueueEmpty (.digitalOut oid) →
        (oids.foldl MoveSystem.shutdownDigitalOut sys).heap.moveQueueEmpty (.digitalOut oid) =
          true := by
  induction oids generalizing sys with
  | nil => exact ⟨settled, fun oid isEmpty => by simpa using isEmpty⟩
  | cons first oids induction =>
    rcases induction (settled.shutdownDigitalOut first) with ⟨later, empty⟩
    refine ⟨later, ?_⟩
    intro oid isEmpty
    apply empty
    rw [List.mem_cons] at isEmpty
    rcases isEmpty with (isFirst | isLater) | isEmpty
    · exact .inr (isFirst ▸ MoveHeap.moveQueueEmpty_clear_self)
    · exact .inl isLater
    · exact .inr (MoveHeap.moveQueueEmpty_clear isEmpty)

theorem shutdownSteppers (oids : List (Fin config.steppers)) :
    ∃ next, oids.foldlM MoveSystem.shutdownStepper sys = some next ∧ next.Settled done ∧
      ∀ oid, oid ∈ oids ∨ sys.heap.moveQueueEmpty (.stepper oid) →
        next.heap.moveQueueEmpty (.stepper oid) = true := by
  induction oids generalizing sys with
  | nil => exact ⟨sys, rfl, settled, fun oid isEmpty => by simpa using isEmpty⟩
  | cons first oids induction =>
    rcases settled.shutdownStepper first with ⟨second, stopped, kept, heap_eq⟩
    rcases induction kept with ⟨next, ran, later, empty⟩
    refine ⟨next, ?_, later, ?_⟩
    · rw [List.foldlM_cons, stopped]
      exact ran
    intro oid isEmpty
    apply empty
    rw [heap_eq]
    rw [List.mem_cons] at isEmpty
    rcases isEmpty with (isFirst | isLater) | isEmpty
    · exact .inr (isFirst ▸ MoveHeap.moveQueueEmpty_clear_self)
    · exact .inl isLater
    · exact .inr (MoveHeap.moveQueueEmpty_clear isEmpty)

/-- A reset undoes nothing either, and it needs nothing of the old pointers. -/
theorem moveReset : { sys with heap := sys.heap.moveReset }.Settled
      fun other => other = ShutdownHandler.moveReset ∨ done other := by
  have positive : sys.heap.moveCount ≠ 0 := by
    rw [settled.counted]
    exact config.moveCount_ne
  have hangs := sys.heap.hangs_moveReset positive
  rw [settled.counted] at hangs
  have sameEmpty : ∀ q, sys.heap.moveReset.moveQueueEmpty q = sys.heap.moveQueueEmpty q := by
    intro q
    rw [MoveHeap.moveQueueEmpty, sys.heap.moveReset_frame.2]
    rfl
  exact { settled with
    counted := sys.heap.moveReset_frame.1.trans settled.counted
    reset := fun _ => hangs
    pins := fun isDone oid =>
      (sameEmpty _).trans (settled.pins (isDone.resolve_left (by decide)) oid)
    steppers := fun isDone oid =>
      (sameEmpty _).trans (settled.steppers (isDone.resolve_left (by decide)) oid) }

theorem runHandler (handler : ShutdownHandler) : ∃ next, sys.runHandler handler = some next ∧
      next.Settled fun other => other = handler ∨ done other := by
  cases handler with
  | moveReset => exact ⟨_, rfl, settled.moveReset⟩
  | digitalOutShutdown =>
    rcases settled.shutdownDigitalOuts (List.finRange config.pins) with ⟨later, empty⟩
    exact ⟨_, rfl, { later with
      reset := fun isDone => later.reset (isDone.resolve_left (by decide))
      pins := fun _ oid => empty oid (.inl (List.mem_finRange oid))
      steppers := fun isDone => later.steppers (isDone.resolve_left (by decide)) }⟩
  | stepperShutdown =>
    rcases settled.shutdownSteppers (List.finRange config.steppers) with
      ⟨next, ran, later, empty⟩
    exact ⟨next, ran, { later with
      reset := fun isDone => later.reset (isDone.resolve_left (by decide))
      pins := fun isDone => later.pins (isDone.resolve_left (by decide))
      steppers := fun _ oid => empty oid (.inl (List.mem_finRange oid)) }⟩
  | trsyncShutdown =>
    exact ⟨sys, rfl, { settled with
      reset := fun isDone => settled.reset (isDone.resolve_left (by decide))
      pins := fun isDone => settled.pins (isDone.resolve_left (by decide))
      steppers := fun isDone => settled.steppers (isDone.resolve_left (by decide)) }⟩

theorem runHandlers (handlers : List ShutdownHandler) :
    ∃ next, handlers.foldlM MoveSystem.runHandler sys = some next ∧
      next.Settled fun other => other ∈ handlers ∨ done other := by
  induction handlers generalizing sys done with
  | nil => exact ⟨sys, rfl, by simpa using settled⟩
  | cons handler handlers induction =>
    rcases settled.runHandler handler with ⟨second, first, settled⟩
    rcases induction settled with ⟨next, ran, settled⟩
    refine ⟨next, ?_, ?_⟩
    · rw [List.foldlM_cons, first]
      exact ran
    · simpa [or_assoc, or_comm, or_left_comm] using settled

theorem empty (all : ∀ handler, done handler) (q : QueueId config) : sys.heap.moveQueueEmpty q := by
  cases q with
  | stepper oid => exact settled.steppers (all _) oid
  | digitalOut oid => exact settled.pins (all _) oid

theorem holding (all : ∀ handler, done handler) : sys.heap.Holding config.moveCount [] :=
  MoveHeap.holding_of_free settled.counted (settled.reset (all _)) (settled.empty all)

end Settled

variable {handlers : List ShutdownHandler}

/-- A shutdown ends with all nodes free and all queues empty, in whatever state it comes and in
whatever order the handlers run. -/
theorem runShutdown_conserved (counted : sys.heap.moveCount = config.moveCount)
    (all : ∀ handler, handler ∈ handlers) (reason : MoveShutdown) :
    ∃ next, sys.runShutdown handlers reason = some next ∧ next.Conserved := by
  have before : sys.schedTimerReset.Settled fun _ => False := {
    counted
    reset := False.elim
    pins := False.elim
    steppers := False.elim
    stepperTimers := fun _ => rfl
    pinTimers := fun _ => rfl }
  rcases before.runHandlers handlers with ⟨next, ran, settled⟩
  have isDone : ∀ handler, handler ∈ handlers ∨ False := fun handler => .inl (all handler)
  refine ⟨_, congrArg (Option.map _) ran, settled.holding isDone, ?_⟩
  intro _
  exact ⟨settled.empty isDone, rfl, settled.stepperTimers, settled.pinTimers⟩

/-! ## Conservation -/

theorem Conserved.step (conserved : sys.Conserved) {step : MoveStep config}
    (allowed : sys.allows step) : ∃ next, sys.step step = some next ∧ next.Conserved := by
  rw [MoveSystem.step, if_pos allowed]
  rw [allows, Bool.and_eq_true] at allowed
  rcases conserved.handle allowed.1 with ⟨outcome, handled, leaves⟩
  rw [handled, Option.bind_some]
  cases outcome with
  | running sys => exact ⟨sys, rfl, leaves⟩
  | shutdown sys reason =>
    refine runShutdown_conserved leaves (fun handler => ?_) reason
    apply (List.isPerm_iff.mp allowed.2).mem_iff.mpr
    cases handler with
    | moveReset => decide
    | digitalOutShutdown => decide
    | stepperShutdown => decide
    | trsyncShutdown => decide

/-- Each node is in exactly one place, no list is cyclic, and only a command in progress has a node
in hand. In a shutdown all nodes are free. -/
structure Accounted (sys : MoveSystem config) (nodes : Place (QueueId config) → List Nat) :
    Prop where
  placement : Placement (· < config.moveCount) nodes
  free : Hangs sys.heap.next sys.heap.moveFreeList (nodes .free)
  queue : ∀ q, Hangs sys.heap.next (sys.heap.mq q).first (nodes (.queue q))
  hand : nodes .hand = (sys.command.map Prod.fst).toList
  shutdown : sys.shutdown.isSome = true →
    (∀ q, nodes (.queue q) = []) ∧ ∀ node, node < config.moveCount → node ∈ nodes .free

theorem Conserved.accounted (conserved : sys.Conserved) : ∃ nodes, sys.Accounted nodes := by
  rcases conserved.holding with ⟨nodes, placed, inHand⟩
  refine ⟨nodes, placed.placement, placed.free, fun q => (placed.queue q).hangs, inHand, ?_⟩
  intro isShutdown
  have idle := conserved.idle isShutdown
  have empty : ∀ q, nodes (.queue q) = [] := by
    intro q
    exact (placed.queue q).hangs.eq_none_iff.mp (Option.isNone_iff_eq_none.mp (idle.queues q))
  refine ⟨empty, ?_⟩
  intro node owned
  rcases (placed.placement.owned node).mp owned with ⟨place, member⟩
  cases place with
  | free => exact member
  | queue q =>
    rw [empty q] at member
    cases member
  | hand =>
    rw [inHand, MoveSystem.inHand, idle.command] at member
    cases member

end MoveSystem

/-- No node is lost or linked twice in any run, and no event that can happen follows a null
pointer or fails to end. -/
theorem move_nodes_conserved {config : MoveConfig} (stepper : Fin config.steppers → PulsedStepper)
    (digitalOut : Fin config.pins → DigitalOut) {steps : List (MoveStep config)}
    {final : MoveSystem config}
    (ran : runEvents MoveSystem.step (.moveFinalize config stepper digitalOut) steps = some final) :
    (∃ nodes, final.Accounted nodes) ∧
      ∀ step, final.allows step = true → (final.step step).isSome = true := by
  have kept : ∀ (sys : MoveSystem config) step next, sys.Conserved →
      sys.step step = some next → next.Conserved := by
    intro sys step next conserved stepped
    have allowed : sys.allows step := by
      rw [MoveSystem.step] at stepped
      split at stepped
      · assumption
      · cases stepped
    rcases conserved.step allowed with ⟨other, isNext, kept⟩
    rw [stepped] at isNext
    cases isNext
    exact kept
  have conserved : final.Conserved :=
    runEvents_invariant kept ⟨MoveHeap.holding_moveFinalize config.moveCount_ne, by nofun⟩ ran
  refine ⟨conserved.accounted, ?_⟩
  intro step allowed
  rcases conserved.step allowed with ⟨next, stepped, -⟩
  rw [stepped]
  rfl

def smallConfig : MoveConfig where
  steppers := 1
  pins := 1
  moveCount := 3
  moveCount_ne := by decide
  maxLate := 1000
  stepPulseTicks := fun _ => 2

def firstStepper : Fin smallConfig.steppers := ⟨0, by decide⟩

def firstPin : Fin smallConfig.pins := ⟨0, by decide⟩

def smallSteps : List (MoveStep smallConfig) :=
  let order := [.stepperShutdown, .moveReset, .trsyncShutdown, .digitalOutShutdown]
  let queueStep := fun count => ⟨.queueStep firstStepper 100 count 0, order⟩
  let finish := ⟨.finish false, order⟩
  [queueStep 2, ⟨.shutdown "Command request", order⟩, ⟨.clearShutdown, order⟩,
    ⟨.resetStepClock firstStepper 1000, order⟩, queueStep 2, finish, queueStep 3, finish,
    ⟨.queueDigitalOut firstPin 500 1, order⟩, ⟨.stepperEvent firstStepper 1100, order⟩, finish,
    queueStep 4]

theorem move_nodes_conserved_three_nodes :
    ∃ final, runEvents MoveSystem.step (.moveFinalize smallConfig
        (fun _ => Stepping.configStepper false)
        (fun _ => .commandConfigDigitalOut false false 0)) smallSteps = some final ∧
      final.heap.moveQueueEmpty (.stepper firstStepper) = false ∧
      final.heap.moveQueueEmpty (.digitalOut firstPin) = false ∧
      final.command.isSome = true ∧ ∃ nodes, final.Accounted nodes :=
  exists_of_ran rfl fun ran => ⟨rfl, rfl, rfl, (move_nodes_conserved _ _ ran).1⟩

end CentauriCarbon.Moves
